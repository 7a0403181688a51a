import Switchboard.Proofs.Lexemes

namespace Switchboard.Source

def Lexeme.word (s : List Char) : Lexeme :=
  let used := s.takeWhile fun c => !endsName c
  ⟨some (.name (String.ofList used)), used, s.dropWhile fun c => !endsName c⟩

-- the arms of the loop in their order
def Lexeme.arm (c : Char) (rest : List Char) : Except Flaw Lexeme :=
  match punctuation c with
  | some kind => .ok ⟨some kind, [c], rest⟩
  | none =>
    if c = '#' then .ok ⟨none, (takeLine (c :: rest)).1, (takeLine (c :: rest)).2⟩
    else if c = '"' ∨ c = '\'' then
      match readQuoted c rest with
      | some q => .ok ⟨some (.string (String.ofList q.value)), c :: q.used, q.rest⟩
      | none => .error .openString
    else if Text.isBlank c ∨ c = ',' then .ok ⟨none, [c], rest⟩
    else if startsNumber c rest then readNumber c rest
    else if Text.isControl c then .error (.character c)
    else .ok (word (c :: rest))

-- the text collected outside of expressions, or the parentheses open inside of one
inductive Mode where
  | outside (collected : List Char) (start : Position)
  | inside (opened : Position) (depth : Int)

structure Scanner where
  rest : List Char
  position : Position := {}
  tokens : List Token := []
  mode : Mode := .outside [] {}

inductive Turn where
  | on (next : Scanner)
  | ended (result : Except ScanError (List Token))

namespace Scanner

def ofCode (code : String) : Scanner := { rest := code.toList }

def consume (s : Scanner) (lexeme : Lexeme) : Scanner :=
  { s with rest := lexeme.rest, position := s.position.advanceAll lexeme.used,
           tokens := s.tokens ++ lexeme.token s.position }

def flush (s : Scanner) (collected : List Char) (start : Position) : Scanner :=
  if collected = [] then s else { s with tokens := s.tokens ++ [⟨start, .text (String.ofList collected)⟩] }

-- The expression ends where the count is zero behind a closing parenthesis.
def expression (s : Scanner) (opened : Position) (depth : Int) : Turn :=
  match s.rest with
  | [] => .ended (.error ⟨.openExpression, opened⟩)
  | c :: rest =>
    match Lexeme.arm c rest with
    | .error flaw => .ended (.error ⟨flaw, s.position⟩)
    | .ok lexeme =>
      let next := s.consume lexeme
      match lexeme.kind with
      | some .parenOpen => .on { next with mode := .inside opened (depth + 1) }
      | some .parenClose =>
        if depth - 1 = 0 then .on { next with mode := .outside [] next.position }
        else .on { next with mode := .inside opened (depth - 1) }
      | _ => .on { next with mode := .inside opened depth }

def turn (s : Scanner) : Turn :=
  match s.mode with
  | .inside opened depth => s.expression opened depth
  | .outside collected start =>
    match s.rest with
    | [] => .ended (.ok ((s.flush collected start).tokens ++ [⟨s.position, .eof⟩]))
    | c :: rest =>
      if c = '(' then (s.flush collected start).expression s.position 0
      else .on { s with rest, position := s.position.advance c,
                        mode := .outside (collected ++ [c]) (if collected = [] then s.position else start) }

inductive Ends : Scanner → Nat → Except ScanError (List Token) → Prop where
  | last {s result} : s.turn = .ended result → Ends s 1 result
  | on {s next turns result} : s.turn = .on next → Ends next turns result → Ends s (turns + 1) result

inductive Reached (code : String) : Scanner → Prop where
  | start : Reached code (.ofCode code)
  | on {s next} : Reached code s → s.turn = .on next → Reached code next

end Scanner

namespace Lexeme

variable {c : Char} {rest : List Char} {lexeme : Lexeme}

-- Whatever ends a name is taken by an arm before the last.
theorem goes_on (plain : punctuation c = none) (unquoted : ¬ (c = '"' ∨ c = '\''))
    (solid : ¬ (Text.isBlank c ∨ c = ',')) : endsName c = false := by
  cases isEnd : endsName c with
  | false => rfl
  | true =>
    simp only [endsName, Bool.or_eq_true, List.contains_eq_mem, List.mem_cons, List.not_mem_nil, or_false,
      decide_eq_true_eq] at isEnd
    rcases isEnd with blank | rfl | rfl | rfl | rfl | rfl | rfl | rfl | rfl | rfl | rfl
    · exact absurd (.inl blank) solid
    · cases plain
    · cases plain
    · cases plain
    · cases plain
    · cases plain
    · cases plain
    · exact absurd (.inr rfl) solid
    · cases plain
    · exact absurd (.inl rfl) unquoted
    · exact absurd (.inr rfl) unquoted

theorem arm_eq (c : Char) (rest : List Char) : arm c rest = readInside c rest := by
  unfold arm readInside
  cases plain : punctuation c with
  | some kind => rfl
  | none =>
    dsimp only
    split
    · next hash =>
      subst hash
      rfl
    · split
      · rfl
      · next unquoted =>
        split
        · rfl
        · next solid =>
          split
          · rfl
          · split
            · rfl
            · simp [word, goes_on plain unquoted solid]

theorem arm_parts (reads : arm c rest = .ok lexeme) : lexeme.used ++ lexeme.rest = c :: rest ∧ lexeme.used ≠ [] :=
  readInside_parts ((arm_eq c rest).symm.trans reads)

theorem read_arm {depth : Nat} (opens : depth = 0 → c = '(') : read depth c rest = arm c rest := by
  rw [arm_eq, read]
  split
  · next zero =>
    rw [opens zero]
    rfl
  · rfl

theorem arm_closes (reads : arm c rest = .ok lexeme) (token : lexeme.kind = some .parenClose) : c = ')' := by
  cases readInside_leads ((arm_eq c rest).symm.trans reads) token
  rfl

end Lexeme

structure IsWord (word : List Char) : Prop where
  some_char : word ≠ []
  free : ∀ c ∈ word, Text.isBlank c = false ∧ c ∉ ['(', ')', '[', ']', '\x7b', '\x7d', ',', ':', '"', '\'']
  first : ∀ c rest, word = c :: rest → c ≠ '#' ∧ c.isDigit = false ∧ Text.isControl c = false
  unsigned : ∀ c rest, word = '-' :: c :: rest → c.isDigit = false

namespace Lexeme

variable {c : Char} {rest : List Char} {lexeme : Lexeme}

theorem word_isWord (plain : punctuation c = none) (hash : c ≠ '#') (unquoted : ¬ (c = '"' ∨ c = '\''))
    (solid : ¬ (Text.isBlank c ∨ c = ',')) (unstarted : startsNumber c rest = false)
    (printed : Text.isControl c = false) : IsWord ((c :: rest).takeWhile fun c => !endsName c) := by
  have goes := goes_on plain unquoted solid
  have front : ((c :: rest).takeWhile fun c => !endsName c) = c :: rest.takeWhile fun c => !endsName c := by
    simp [goes]
  obtain ⟨digitless, signless⟩ := Bool.or_eq_false_iff.mp unstarted
  rw [front]
  refine ⟨by simp, ?_, ?_, ?_⟩
  · intro d present
    have through : endsName d = false := by
      rcases List.mem_cons.mp present with rfl | more
      · exact goes
      · simpa using List.all_eq_true.mp List.all_takeWhile d more
    simpa [endsName] using through
  · rintro d more same
    cases same
    exact ⟨hash, digitless, printed⟩
  · intro d more same
    obtain ⟨rfl, after⟩ := List.cons.inj same
    cases rest with
    | nil => cases after
    | cons e others =>
      rw [List.takeWhile_cons] at after
      split at after <;> cases after
      simpa using signless

theorem arm_name {name : String} (reads : arm c rest = .ok lexeme) (token : lexeme.kind = some (.name name)) :
    IsWord name.toList := by
  unfold arm at reads
  split at reads
  · next found =>
    cases reads
    cases token
    unfold punctuation at found
    split at found <;> cases found
  · next plain =>
    split at reads
    · cases reads
      cases token
    · next hash =>
      split at reads
      · split at reads <;> cases reads
        cases token
      · next unquoted =>
        split at reads
        · cases reads
          cases token
        · next solid =>
          split at reads
          · unfold readNumber at reads
            dsimp only at reads
            split at reads <;> cases reads
            cases token
          · next unstarted =>
            split at reads <;> cases reads
            next printed =>
            cases token
            rw [String.toList_ofList]
            exact word_isWord plain hash unquoted solid (Bool.eq_false_iff.mpr unstarted)
              (Bool.eq_false_iff.mpr printed)

end Lexeme

theorem scan_refused {depth : Nat} {opened position : Position} {c : Char} {rest : List Char} {flaw : Flaw}
    (reads : Lexeme.read depth c rest = .error flaw) :
    scan depth opened position (c :: rest) = .error ⟨flaw, position⟩ := by
  rw [scan]
  split
  · next found =>
    cases reads.symm.trans found
    rfl
  · next found => cases reads.symm.trans found

theorem scan_read {depth : Nat} {opened position : Position} {c : Char} {rest : List Char} {lexeme : Lexeme}
    (reads : Lexeme.read depth c rest = .ok lexeme) :
    scan depth opened position (c :: rest) =
      (scan (lexeme.depthAfter depth) (if depth = 0 then position else opened) (position.advanceAll lexeme.used)
        lexeme.rest).map (lexeme.token position ++ ·) := by
  rw [scan]
  split
  · next found => cases reads.symm.trans found
  · next found =>
    cases reads.symm.trans found
    dsimp only
    split <;> next same => rw [same]; rfl

-- Where nothing is open it does not matter what was.
theorem scan_opened (opened opened' position : Position) (s : List Char) :
    scan 0 opened position s = scan 0 opened' position s := by
  cases s with
  | nil => simp [scan]
  | cons c rest =>
    have reads : Lexeme.read 0 c rest = .ok (Lexeme.readOutside c rest) := rfl
    rw [scan_read reads, scan_read reads]
    rfl

theorem scan_text {collected rest : List Char} (full : collected ≠ []) (free : '(' ∉ collected)
    (ends : rest = [] ∨ rest.head? = some '(') (opened start : Position) :
    scan 0 opened start (collected ++ rest) =
      (scan 0 opened (start.advanceAll collected) rest).map (⟨start, .text (String.ofList collected)⟩ :: ·) := by
  obtain ⟨c, more, rfl⟩ := List.exists_cons_of_ne_nil full
  have passes : ∀ d ∈ more, decide (d ≠ '(') = true := fun d present =>
    decide_eq_true fun same => free (same ▸ List.mem_cons_of_mem c present)
  have stops : rest.takeWhile (· ≠ '(') = [] ∧ rest.dropWhile (· ≠ '(') = rest := by
    rcases ends with rfl | head
    · exact ⟨rfl, rfl⟩
    · obtain ⟨after, rfl⟩ := List.head?_eq_some_iff.mp head
      exact ⟨rfl, rfl⟩
  have other : c ≠ '(' := fun same => free (same ▸ List.mem_cons_self)
  have reads : Lexeme.read 0 c (more ++ rest) =
      .ok ⟨some (.text (String.ofList (c :: more))), c :: more, rest⟩ := by
    simp only [Lexeme.read, Lexeme.readOutside, if_neg other, List.takeWhile_append_of_pos passes,
      List.dropWhile_append_of_pos passes, stops, List.append_nil, if_true]
  rw [List.cons_append, scan_read reads]
  exact congrArg (Except.map _) (scan_opened start opened (start.advanceAll (c :: more)) rest)

namespace Scanner

variable {s next : Scanner} {code : String}

theorem expression_uses {opened : Position} {depth : Int} (steps : s.expression opened depth = .on next) :
    ∃ used, used ≠ [] ∧ s.rest = used ++ next.rest := by
  unfold expression at steps
  split at steps
  · cases steps
  · next c rest front =>
    split at steps
    · cases steps
    · next lexeme reads =>
      obtain ⟨whole, used⟩ := Lexeme.arm_parts reads
      refine ⟨lexeme.used, used, ?_⟩
      rw [front, ← whole]
      dsimp only at steps
      split at steps
      · cases steps
        rfl
      · split at steps <;> cases steps <;> rfl
      · cases steps
        rfl

theorem flush_rest (s : Scanner) (collected : List Char) (start : Position) :
    (s.flush collected start).rest = s.rest ∧ (s.flush collected start).position = s.position := by
  unfold flush
  split <;> exact ⟨rfl, rfl⟩

theorem turn_uses (steps : s.turn = .on next) : ∃ used, used ≠ [] ∧ s.rest = used ++ next.rest := by
  unfold turn at steps
  split at steps
  · exact expression_uses steps
  · next collected start _ =>
    split at steps
    · cases steps
    · next c rest front =>
      split at steps
      · rw [← (s.flush_rest collected start).1]
        exact expression_uses steps
      · cases steps
        exact ⟨[c], by simp, front⟩

-- Every scanner comes to an end, after one turn more than there are characters at the latest.
theorem ends_within (length : Nat) : ∀ s : Scanner, s.rest.length = length →
    ∃ turns result, turns ≤ length + 1 ∧ Ends s turns result := by
  induction length using Nat.strongRecOn with
  | ind length ih =>
    intro s whole
    cases turned : s.turn with
    | ended result => exact ⟨1, result, by omega, .last turned⟩
    | on next =>
      obtain ⟨used, some_char, parts⟩ := turn_uses turned
      have count := congrArg List.length parts
      rw [List.length_append] at count
      have positive := List.length_pos_iff.mpr some_char
      obtain ⟨turns, result, few, ends⟩ := ih next.rest.length (by omega) next rfl
      exact ⟨turns + 1, result, by omega, .on turned ends⟩

-- the mode at a position: outside, what was collected leads there from its start
inductive Fits (position : Position) : Mode → Prop where
  | outside {collected start} : '(' ∉ collected → (collected ≠ [] → position = start.advanceAll collected) →
    Fits position (.outside collected start)
  | inside {opened depth} : 0 < depth → Fits position (.inside opened depth)

-- what the turns to come add to the tokens, as the scanner at once has it
def remaining (s : Scanner) : Except ScanError (List Token) :=
  match s.mode with
  | .inside opened depth => (scan depth.toNat opened s.position s.rest).map (s.tokens ++ ·)
  | .outside collected start =>
    (scan 0 {} (if collected = [] then s.position else start) (collected ++ s.rest)).map (s.tokens ++ ·)

theorem ofCode_fits (code : String) : Fits (ofCode code).position (ofCode code).mode :=
  .outside (by simp) (by simp)

theorem ofCode_remaining (code : String) : (ofCode code).remaining = tokenize code := by
  unfold remaining ofCode tokenize
  cases scanned : scan 0 {} {} code.toList <;> simp [scanned, Except.map]

structure Keeps (turned : Turn) (remaining : Except ScanError (List Token)) : Prop where
  on : ∀ next, turned = .on next → Fits next.position next.mode ∧ next.remaining = remaining
  ended : ∀ result, turned = .ended result → result = remaining

theorem Keeps.of_on {remaining : Except ScanError (List Token)} (fits : Fits next.position next.mode)
    (same : next.remaining = remaining) : Keeps (.on next) remaining :=
  ⟨fun _ turned => Turn.on.inj turned ▸ ⟨fits, same⟩, nofun⟩

theorem Keeps.of_ended {result remaining : Except ScanError (List Token)} (same : result = remaining) :
    Keeps (.ended result) remaining :=
  ⟨nofun, fun _ turned => (Turn.ended.inj turned).symm.trans same⟩

theorem map_append (before more : List Token) (result : Except ScanError (List Token)) :
    (result.map (more ++ ·)).map (before ++ ·) = result.map ((before ++ more) ++ ·) := by
  cases result <;> simp [Except.map]

theorem expression_keeps (s : Scanner) (opened : Position) (depth : Nat)
    (begins : depth = 0 → s.rest.head? = some '(' ∧ opened = s.position) :
    Keeps (s.expression opened depth) ((scan depth opened s.position s.rest).map (s.tokens ++ ·)) := by
  unfold expression
  split
  · next front =>
    have positive : depth ≠ 0 := fun zero => by simpa [front] using (begins zero).1
    refine .of_ended ?_
    rw [front, scan, if_neg positive]
    rfl
  · next c rest front =>
    rw [front] at begins ⊢
    have opens : depth = 0 → c = '(' := fun zero => by simpa using (begins zero).1
    have place : (if depth = 0 then s.position else opened) = opened := by
      split
      · next zero => exact (begins zero).2.symm
      · rfl
    rw [← Lexeme.read_arm opens]
    split
    · next flaw reads =>
      refine .of_ended ?_
      rw [scan_refused reads]
      rfl
    · next lexeme reads =>
      rw [scan_read reads, place, map_append]
      have armed := (Lexeme.read_arm opens).symm.trans reads
      dsimp only
      split
      · next token =>
        refine .of_on (.inside (by omega)) ?_
        simp only [remaining, consume, Lexeme.depthAfter, token]
        rfl
      · next token =>
        have positive : depth ≠ 0 := fun zero => by
          have closes := Lexeme.arm_closes armed token
          rw [opens zero] at closes
          cases closes
        have count : lexeme.depthAfter depth = depth - 1 := by simp only [Lexeme.depthAfter, token]
        rw [count]
        split
        · next last =>
          -- the outermost parenthesis is closed, and where it was opened does not matter any more
          refine .of_on (.outside (by simp) (by simp)) ?_
          have zero : depth - 1 = 0 := by omega
          rw [zero, scan_opened opened {}]
          rfl
        · next more =>
          refine .of_on (.inside (by omega)) ?_
          have same : ((depth : Int) - 1).toNat = depth - 1 := by omega
          simp only [remaining, consume, same]
      · next unopened unclosed =>
        -- with nothing open this would be the parenthesis that begins the expression
        have stays : lexeme.depthAfter depth = depth := by
          unfold Lexeme.depthAfter
          split
          · next token => exact absurd token unopened
          · next token => exact absurd token unclosed
          · rfl
        have positive : depth ≠ 0 := fun zero => by
          have same := opens zero
          subst same
          cases armed
          exact unopened rfl
        rw [stays]
        exact .of_on (.inside (by omega)) rfl

theorem flush_remaining {collected : List Char} {start : Position} (mode : s.mode = .outside collected start)
    (fits : Fits s.position s.mode) (ends : s.rest = [] ∨ s.rest.head? = some '(') :
    (scan 0 {} s.position s.rest).map ((s.flush collected start).tokens ++ ·) = s.remaining := by
  rw [mode] at fits
  cases fits with
  | outside free place =>
    unfold remaining flush
    rw [mode]
    dsimp only
    by_cases empty : collected = []
    · simp [empty]
    · rw [if_neg empty, if_neg empty, scan_text empty free ends, ← place empty]
      exact (map_append _ [_] _).symm

theorem turn_keeps (fits : Fits s.position s.mode) : Keeps s.turn s.remaining := by
  unfold turn
  split
  · next opened depth mode =>
    have inside := fits
    rw [mode] at inside
    cases inside with
    | inside positive =>
      have same : (depth.toNat : Int) = depth := Int.toNat_of_nonneg (by omega)
      have kept := s.expression_keeps opened depth.toNat (by omega)
      rwa [same, show (scan depth.toNat opened s.position s.rest).map (s.tokens ++ ·) = s.remaining by
        rw [remaining, mode]] at kept
  · next collected start mode =>
    split
    · next front =>
      refine .of_ended ?_
      rw [← flush_remaining mode fits (.inl front), front, scan, if_pos rfl]
      rfl
    · next c rest front =>
      split
      · next paren =>
        subst paren
        obtain ⟨same_rest, same_position⟩ := s.flush_rest collected start
        have kept := (s.flush collected start).expression_keeps s.position 0
          fun _ => by simp [same_rest, front, same_position]
        rw [same_rest, same_position, scan_opened s.position {},
          flush_remaining mode fits (.inr (by rw [front]; rfl))] at kept
        exact kept
      · next other =>
        rw [mode] at fits
        cases fits with
        | outside free place =>
          refine .of_on ?_ ?_
          · refine .outside (by simp [free, Ne.symm other]) fun _ => ?_
            dsimp only
            split
            · next empty => simp [empty, Position.advanceAll]
            · next full => rw [Position.advanceAll_append, ← place full]; rfl
          · simp [remaining, mode, front]

theorem Ends.remaining {turns : Nat} {result : Except ScanError (List Token)} (ends : Ends s turns result)
    (fits : Fits s.position s.mode) : result = s.remaining := by
  induction ends with
  | last turned => exact (turn_keeps fits).ended _ turned
  | on turned _ ih =>
    obtain ⟨fits', same⟩ := (turn_keeps fits).on _ turned
    rw [ih fits', same]

def Named (tokens : List Token) : Prop :=
  ∀ t ∈ tokens, ∀ name, t.kind = .name name → IsWord name.toList

theorem Named.append {before more : List Token} (named : Named before) (also : Named more) : Named (before ++ more) :=
  fun t present => (List.mem_append.mp present).elim (named t) (also t)

theorem Named.flush (named : Named s.tokens) (collected : List Char) (start : Position) :
    Named (s.flush collected start).tokens := by
  unfold Scanner.flush
  split
  · exact named
  · exact named.append (by simp [Named])

theorem Named.expression {opened : Position} {depth : Int} (named : Named s.tokens)
    (steps : s.expression opened depth = .on next) : Named next.tokens := by
  unfold Scanner.expression at steps
  split at steps
  · cases steps
  · split at steps
    · cases steps
    · next lexeme reads =>
      have consumed : Named (s.consume lexeme).tokens :=
        named.append fun t present name same => by
          obtain ⟨token, _⟩ := Lexeme.mem_token.mp present
          exact Lexeme.arm_name reads (token.trans (congrArg some same))
      dsimp only at steps
      split at steps
      · cases steps
        exact consumed
      · split at steps <;> cases steps <;> exact consumed
      · cases steps
        exact consumed

theorem Named.turn (named : Named s.tokens) (steps : s.turn = .on next) : Named next.tokens := by
  unfold Scanner.turn at steps
  split at steps
  · exact named.expression steps
  · split at steps
    · cases steps
    · split at steps
      · exact (named.flush _ _).expression steps
      · cases steps
        exact named

theorem expression_ended {opened : Position} {depth : Int} {result : Except ScanError (List Token)}
    (ends : s.expression opened depth = .ended result) : ∃ e, result = .error e := by
  unfold expression at ends
  split at ends
  · cases ends
    exact ⟨_, rfl⟩
  · split at ends
    · cases ends
      exact ⟨_, rfl⟩
    · dsimp only at ends
      split at ends
      · cases ends
      · split at ends <;> cases ends
      · cases ends

theorem Named.ended {tokens : List Token} (named : Named s.tokens) (ends : s.turn = .ended (.ok tokens)) :
    Named tokens := by
  unfold Scanner.turn at ends
  split at ends
  · cases expression_ended ends
    contradiction
  · split at ends
    · cases ends
      exact (named.flush _ _).append (by simp [Named])
    · split at ends
      · cases expression_ended ends
        contradiction
      · cases ends

theorem Ends.named {turns : Nat} {result : Except ScanError (List Token)} (ends : Ends s turns result)
    (named : Named s.tokens) {tokens : List Token} (given : result = .ok tokens) : Named tokens := by
  induction ends with
  | last turned => exact named.ended (given ▸ turned)
  | on turned _ ih => exact ih (named.turn turned) given

theorem Reached.fits (reached : Reached code s) : Fits s.position s.mode := by
  induction reached with
  | start => exact ofCode_fits code
  | on _ turned ih => exact ((turn_keeps ih).on _ turned).1

theorem Reached.named (reached : Reached code s) : Named s.tokens := by
  induction reached with
  | start => simp [Named, ofCode]
  | on _ turned ih => exact ih.turn turned

end Scanner

open Scanner in
structure Progresses (code : String) : Prop where
  uses : ∀ s next : Scanner, s.turn = .on next → ∃ used, used ≠ [] ∧ s.rest = used ++ next.rest
  ends : ∃ turns, turns ≤ code.length + 1 ∧ Ends (ofCode code) turns (tokenize code)
  only : ∀ turns result, Ends (ofCode code) turns result → result = tokenize code
  positive : ∀ s, Reached code s → ∀ opened depth, s.mode = .inside opened depth → 0 < depth
  words : ∀ s, Reached code s → Named s.tokens
  given : ∀ tokens, tokenize code = .ok tokens → Named tokens

-- For every text each turn uses up a character or is the last, the turns end with what `tokenize` gives, the count of
-- open parentheses stays positive, and every name is a word, also in front of an error.
theorem scanner_progresses (code : String) : Progresses code := by
  have only {turns : Nat} {result} (ends : Scanner.Ends (.ofCode code) turns result) : result = tokenize code :=
    (ends.remaining (Scanner.ofCode_fits code)).trans (Scanner.ofCode_remaining code)
  obtain ⟨turns, result, few, ends⟩ := Scanner.ends_within code.length (.ofCode code) rfl
  have same := only ends
  subst same
  refine ⟨fun _ _ => Scanner.turn_uses, ⟨turns, few, ends⟩, fun _ _ => only, ?_, fun _ => Scanner.Reached.named, ?_⟩
  · intro s reached opened depth mode
    have fits := reached.fits
    rw [mode] at fits
    cases fits with
    | inside positive => exact positive
  · intro tokens given
    exact ends.named (by simp [Scanner.Named, Scanner.ofCode]) given

end Switchboard.Source
