import Mathlib.Data.List.Forall2
import Switchboard.Proofs.Lexemes
import Switchboard.Source.Comment

namespace Switchboard.Source

-- somewhere an asterisk with a slash behind it, which closes what is open
def Closed (s : List Char) : Prop := ['*', '/'] <:+: s

theorem afterClosing_none {s : List Char} : afterClosing s = none ↔ ¬ Closed s := by
  unfold Closed
  fun_induction afterClosing s with
  | case1 => simp
  | case2 rest => simpa using List.infix_append [] ['*', '/'] rest
  | case3 c rest other ih =>
    rw [ih, List.infix_cons_iff]
    constructor
    · rintro inner (⟨after, here⟩ | later)
      · cases here
        exact other after rfl rfl
      · exact inner later
    · intro none inner
      exact none (.inr inner)

section
variable {s after : List Char}

theorem afterClosing_suffix (closes : afterClosing s = some after) : after <:+ s := by
  fun_induction afterClosing s with
  | case1 => cases closes
  | case2 rest =>
    cases closes
    exact ⟨['*', '/'], rfl⟩
  | case3 c rest _ ih => exact (ih closes).trans (List.suffix_cons c rest)

theorem afterClosing_append (closes : afterClosing s = some after) (behind : List Char) :
    afterClosing (s ++ behind) = some (after ++ behind) := by
  fun_induction afterClosing s with
  | case1 => cases closes
  | case2 =>
    cases closes
    rfl
  | case3 c rest other ih =>
    rw [List.cons_append, afterClosing]
    · exact ih closes
    · intro more star slash
      cases rest with
      | nil => cases closes
      | cons d rest =>
        cases slash
        exact other rest star rfl

end

theorem strip_nil : stripComments [] = [] := by
  rw [stripComments]

theorem strip_comment {rest after : List Char} (closes : afterClosing rest = some after) :
    stripComments ('/' :: '*' :: rest) = stripComments after := by
  rw [stripComments]
  split
  · next found =>
    cases closes.symm.trans found
    rfl
  · next none => cases closes.symm.trans none

theorem strip_open {rest : List Char} (never : ¬ Closed rest) :
    stripComments ('/' :: '*' :: rest) = '/' :: '*' :: rest := by
  rw [stripComments]
  split
  · next found => cases (afterClosing_none.mpr never).symm.trans found
  · rfl

theorem strip_cons {c : Char} {rest : List Char} (plain : c = '/' → rest.head? ≠ some '*') :
    stripComments (c :: rest) = c :: stripComments rest := by
  rw [stripComments]
  intro more slash star
  exact plain slash (by rw [star]; rfl)

-- Where nothing that is opened is ever closed there are no comments.
theorem strip_unclosed {s : List Char}
    (never : ∀ before after, s = before ++ '/' :: '*' :: after → ¬ Closed after) : stripComments s = s := by
  fun_induction stripComments s with
  | case1 => rfl
  | case2 rest after closes _ =>
    cases closes.symm.trans (afterClosing_none.mpr (never [] rest rfl))
  | case3 rest => rfl
  | case4 c rest _ ih =>
    rw [ih]
    rintro before after rfl
    exact never (c :: before) after rfl

section
variable {used behind : List Char}

theorem strip_plain
    (plain : ∀ inner outer, used ++ behind = inner ++ '/' :: '*' :: outer → used.length ≤ inner.length) :
    stripComments (used ++ behind) = used ++ stripComments behind := by
  induction used with
  | nil => rfl
  | cons c used ih =>
    rw [List.cons_append, strip_cons, ih, List.cons_append]
    · intro inner outer same
      simpa using plain (c :: inner) outer (by simp [same])
    · intro slash star
      obtain ⟨outer, same⟩ := List.head?_eq_some_iff.mp star
      have first := plain [] outer (by rw [List.cons_append, slash, same]; rfl)
      cases first

-- What begins in the front part ends in it or nowhere, and nothing begins across the border.
theorem strip_contained
    (contained : ∀ inner outer, used = inner ++ '/' :: '*' :: outer → Closed outer ∨ ¬ Closed (outer ++ behind))
    (apart : ∀ front, used ≠ front ++ ['/']) :
    stripComments (used ++ behind) = stripComments used ++ stripComments behind := by
  fun_induction stripComments used with
  | case1 => rfl
  | case2 rest after closes ih =>
    rw [List.cons_append, List.cons_append, strip_comment (afterClosing_append closes behind)]
    obtain ⟨passed, whole⟩ := afterClosing_suffix closes
    apply ih
    · rintro inner outer rfl
      exact contained ('/' :: '*' :: passed ++ inner) outer (by simp [← whole])
    · rintro front rfl
      exact apart ('/' :: '*' :: passed ++ front) (by simp [← whole])
  | case3 rest unclosed =>
    have never : ¬ Closed (rest ++ behind) := by
      rcases contained [] rest rfl with closed | never
      · exact absurd closed (afterClosing_none.mp unclosed)
      · exact never
    -- what this one is not closed by could close no later one either
    have further : stripComments behind = behind := by
      apply strip_unclosed
      rintro before after rfl closed
      exact never (closed.trans ⟨rest ++ before ++ ['/', '*'], [], by simp⟩)
    rw [List.cons_append, List.cons_append, strip_open never, further]
    rfl
  | case4 c rest other ih =>
    rw [List.cons_append, strip_cons, ih, List.cons_append]
    · rintro inner outer rfl
      exact contained (c :: inner) outer rfl
    · rintro front rfl
      exact apart (c :: front) rfl
    · intro slash star
      cases rest with
      | nil => exact apart [] (by rw [slash]; rfl)
      | cons d rest =>
        cases star
        exact other rest slash rfl

end

-- Of what stands behind it a word depends on the first character only.
section
variable {more rest rest' : List Char} (first : rest'.head? = rest.head?)
include first

theorem takeWhile_behind {p : Char → Bool} (taken : (more ++ rest).takeWhile p = more) :
    (more ++ rest').takeWhile p = more ∧ (more ++ rest').dropWhile p = rest' := by
  induction more with
  | nil =>
    cases rest' with
    | nil => exact ⟨rfl, rfl⟩
    | cons c rest' =>
      obtain ⟨rest, rfl⟩ := List.head?_eq_some_iff.mp first.symm
      have ends : ¬ p c = true := fun holds => by simp [holds] at taken
      simp [ends]
  | cons c more ih =>
    rw [List.cons_append, List.takeWhile_cons] at taken
    split at taken
    · next holds =>
      obtain ⟨word, left⟩ := ih (List.tail_eq_of_cons_eq taken)
      simp [holds, word, left]
    · cases taken

theorem takeNumber_behind {marked : Bool} (taken : takeNumber marked (more ++ rest) = (more, rest)) :
    takeNumber marked (more ++ rest') = (more, rest') := by
  induction more generalizing marked with
  | nil =>
    cases rest' with
    | nil => rfl
    | cons c rest' =>
      obtain ⟨rest, rfl⟩ := List.head?_eq_some_iff.mp first.symm
      rw [List.nil_append, takeNumber] at taken ⊢
      split at taken
      · cases taken
      · next ends => rw [if_neg ends]
  | cons c more ih =>
    rw [List.cons_append, takeNumber] at taken ⊢
    split at taken
    · next goes =>
      have later : takeNumber (marksExponent c) (more ++ rest) = (more, rest) := by
        simpa [Prod.ext_iff] using taken
      rw [if_pos goes, ih later]
    · cases taken

theorem takeLine_behind (taken : takeLine (more ++ rest) = (more, rest)) :
    takeLine (more ++ rest') = (more, rest') := by
  induction more with
  | nil =>
    cases rest' with
    | nil => rfl
    | cons c rest' =>
      obtain ⟨rest, rfl⟩ := List.head?_eq_some_iff.mp first.symm
      rw [List.nil_append, takeLine] at taken
      split at taken <;> cases taken
  | cons c more ih =>
    rw [List.cons_append, takeLine] at taken ⊢
    split at taken
    · next ended =>
      rw [if_pos ended]
      cases more with
      | nil => rfl
      | cons d more => cases taken
    · next goes =>
      have later : takeLine (more ++ rest) = (more, rest) := by simpa [Prod.ext_iff] using taken
      rw [if_neg goes, ih later]

end

section
variable {quote : Char} {s : List Char} {q : Quoted}

theorem no_escape {c : Char} {more : List Char} (lone : c = '\\' → more = [] → False)
    (other : ∀ d rest, c = '\\' → more = d :: rest → False) : c ≠ '\\' := by
  intro escape
  cases more with
  | nil => exact lone escape rfl
  | cons d rest => exact other d rest escape rfl

theorem readQuoted_behind (reads : readQuoted quote s = some q) (rest : List Char) :
    readQuoted quote (q.used ++ rest) = some ⟨q.value, q.used, rest⟩ := by
  fun_induction readQuoted quote s generalizing q with
  | case1 => cases reads
  | case2 => cases reads
  | case3 c more ih =>
    obtain ⟨inner, found, rfl⟩ := Option.map_eq_some_iff.mp reads
    simp [readQuoted, ih found]
  | case4 more lone other =>
    cases reads
    rw [List.singleton_append, readQuoted, if_pos rfl] <;> simp [no_escape lone other]
  | case5 c more lone other differs ih =>
    obtain ⟨inner, found, rfl⟩ := Option.map_eq_some_iff.mp reads
    rw [List.cons_append, readQuoted, if_neg differs, ih found] <;> simp [no_escape lone other]

theorem readQuoted_ends (reads : readQuoted quote s = some q) : ∃ front, q.used = front ++ [quote] := by
  fun_induction readQuoted quote s generalizing q with
  | case1 => cases reads
  | case2 => cases reads
  | case3 c more ih =>
    obtain ⟨inner, found, rfl⟩ := Option.map_eq_some_iff.mp reads
    obtain ⟨front, whole⟩ := ih found
    exact ⟨'\\' :: c :: front, by simp [whole]⟩
  | case4 =>
    cases reads
    exact ⟨[], rfl⟩
  | case5 c more _ _ _ ih =>
    obtain ⟨inner, found, rfl⟩ := Option.map_eq_some_iff.mp reads
    obtain ⟨front, whole⟩ := ih found
    exact ⟨c :: front, by simp [whole]⟩

end

namespace Lexeme

section
variable {c : Char} {more rest rest' : List Char} {kind : Option TokenKind}

theorem head_append (first : rest'.head? = rest.head?) (more : List Char) :
    (more ++ rest').head? = (more ++ rest).head? := by
  cases more with
  | nil => exact first
  | cons => rfl

theorem read_parted {k : Option TokenKind} {d : Char} {used left : List Char}
    (reads : (.ok ⟨k, d :: used, left⟩ : Except Flaw Lexeme) = .ok ⟨kind, c :: more, rest⟩) :
    kind = k ∧ used = more ∧ left = rest := by
  injection reads with same
  injection same with kind used left
  injection used with _ used
  exact ⟨kind.symm, used, left⟩

theorem readNumber_behind (first : rest'.head? = rest.head?)
    (reads : readNumber c (more ++ rest) = .ok ⟨kind, c :: more, rest⟩) :
    readNumber c (more ++ rest') = .ok ⟨kind, c :: more, rest'⟩ := by
  unfold readNumber at reads ⊢
  dsimp only at reads ⊢
  split at reads
  · next value =>
    obtain ⟨rfl, taken, left⟩ := read_parted reads
    rw [takeNumber_behind first (Prod.ext taken left)]
    rw [taken] at value
    dsimp only
    rw [value]
  · cases reads

-- One case for each way to read. A literal apart, nothing depends on more than the next character.
theorem readInside_behind (first : rest'.head? = rest.head?)
    (reads : readInside c (more ++ rest) = .ok ⟨kind, c :: more, rest⟩)
    (bare : ∀ content, kind ≠ some (.string content)) :
    readInside c (more ++ rest') = .ok ⟨kind, c :: more, rest'⟩ := by
  unfold readInside at reads ⊢
  split at reads
  · obtain ⟨rfl, rfl, _⟩ := read_parted reads
    rfl
  · split at reads
    · next hash =>
      obtain ⟨rfl, taken, left⟩ := read_parted reads
      rw [if_pos hash, takeLine_behind first (Prod.ext taken left)]
    · next hash =>
      rw [if_neg hash]
      split at reads
      · split at reads
        · obtain ⟨rfl, _⟩ := read_parted reads
          exact absurd rfl (bare _)
        · cases reads
      · next quote =>
        rw [if_neg quote]
        split at reads
        · next blank =>
          obtain ⟨rfl, rfl, _⟩ := read_parted reads
          rw [if_pos blank]
          rfl
        · next blank =>
          have starts : startsNumber c (more ++ rest') = startsNumber c (more ++ rest) := by
            unfold startsNumber
            rw [head_append first]
          rw [if_neg blank, starts]
          split at reads
          · next number => rw [if_pos number, readNumber_behind first reads]
          · next number =>
            rw [if_neg number]
            split at reads
            · cases reads
            · next control =>
              obtain ⟨rfl, taken, _⟩ := read_parted reads
              obtain ⟨word, left⟩ := takeWhile_behind first taken
              rw [if_neg control, taken, word, left]

theorem readOutside_behind (first : rest'.head? = rest.head?)
    (reads : readOutside c (more ++ rest) = ⟨kind, c :: more, rest⟩) :
    readOutside c (more ++ rest') = ⟨kind, c :: more, rest'⟩ := by
  unfold readOutside at reads ⊢
  split at reads
  · next paren =>
    obtain ⟨rfl, rfl, _⟩ := read_parted (congrArg Except.ok reads)
    rw [if_pos paren]
    rfl
  · next paren =>
    obtain ⟨rfl, taken, _⟩ := read_parted (congrArg Except.ok reads)
    obtain ⟨text, left⟩ := takeWhile_behind first taken
    rw [if_neg paren, taken, text, left]

theorem read_behind {depth : Nat} (first : rest'.head? = rest.head?)
    (reads : read depth c (more ++ rest) = .ok ⟨kind, c :: more, rest⟩)
    (bare : ∀ content, kind ≠ some (.string content)) :
    read depth c (more ++ rest') = .ok ⟨kind, c :: more, rest'⟩ := by
  unfold read at reads ⊢
  split at reads
  · next outside =>
    injection reads with same
    rw [if_pos outside, readOutside_behind first same]
  · next inside =>
    rw [if_neg inside]
    exact readInside_behind first reads bare

end
end Lexeme

-- a literal with its quotes, and what it holds
inductive Spells : List Char → String → Prop where
  | quoted {quote text value} : quote = '"' ∨ quote = '\'' → readQuoted quote text = some ⟨value, text, []⟩ →
    Spells (quote :: text) (String.ofList value)

def CommentsQuoted (lexemes : List Lexeme) : Prop :=
  ∀ before after, lexemes.flatMap Lexeme.used = before ++ '/' :: '*' :: after →
    ∃ front lexeme back content inner outer, lexemes = front ++ lexeme :: back ∧
      lexeme.kind = some (.string content) ∧ lexeme.used = inner ++ '/' :: '*' :: outer ∧
      before = front.flatMap Lexeme.used ++ inner

-- What begins in a literal ends in it or nowhere, and without its comments the literal is one still.
structure CommentsContained (lexemes : List Lexeme) : Prop where
  ends : ∀ front lexeme back inner outer, lexemes = front ++ lexeme :: back →
    lexeme.used = inner ++ '/' :: '*' :: outer → Closed outer ∨ ¬ Closed (outer ++ back.flatMap Lexeme.used)
  literals : ∀ lexeme ∈ lexemes, ∀ content, lexeme.kind = some (.string content) →
    ∃ bare, Spells (stripComments lexeme.used) bare

inductive Lexeme.Uncommented : Lexeme → Lexeme → Prop where
  | same {kind used rest rest'} : (∀ content, kind ≠ some (.string content)) →
    Uncommented ⟨kind, used, rest⟩ ⟨kind, used, rest'⟩
  | literal {used rest rest' content bare} : Spells (stripComments used) bare →
    Uncommented ⟨some (.string content), used, rest⟩ ⟨some (.string bare), stripComments used, rest'⟩

section
variable {lexeme : Lexeme} {more : List Lexeme}

theorem CommentsQuoted.tail (quoted : CommentsQuoted (lexeme :: more)) : CommentsQuoted more := by
  intro before after whole
  obtain ⟨front, literal, back, content, inner, outer, parts, string, here, place⟩ :=
    quoted (lexeme.used ++ before) after (by simp [whole])
  cases front with
  | nil =>
    -- what stands behind the first lexeme does not stand in it
    injection parts with same
    subst same
    have long := congrArg List.length here
    have short := congrArg List.length place
    simp only [List.length_append, List.length_cons, List.flatMap_nil, List.nil_append] at long short
    omega
  | cons first front =>
    injection parts with same parts
    subst same
    exact ⟨front, literal, back, content, inner, outer, parts, string, here, by simpa using place⟩

theorem CommentsQuoted.head (quoted : CommentsQuoted (lexeme :: more))
    (bare : ∀ content, lexeme.kind ≠ some (.string content)) {inner outer : List Char}
    (opens : lexeme.used ++ more.flatMap Lexeme.used = inner ++ '/' :: '*' :: outer) :
    lexeme.used.length ≤ inner.length := by
  obtain ⟨front, literal, back, content, inside, _, parts, string, _, place⟩ := quoted inner outer opens
  cases front with
  | nil =>
    injection parts with same
    exact absurd (same ▸ string) (bare content)
  | cons first front =>
    injection parts with same
    subst same
    simp [place]

theorem CommentsContained.tail (contained : CommentsContained (lexeme :: more)) : CommentsContained more where
  ends := by
    intro front literal back inner outer parts
    exact contained.ends (lexeme :: front) literal back inner outer (by rw [parts]; rfl)
  literals := fun literal present => contained.literals literal (List.mem_cons_of_mem _ present)

end

namespace Lexeme

theorem readInside_quote {c : Char} (quote : c = '"' ∨ c = '\'') (rest : List Char) :
    readInside c rest = match readQuoted c rest with
      | some q => .ok ⟨some (.string (String.ofList q.value)), c :: q.used, q.rest⟩
      | none => .error .openString := by
  rcases quote with rfl | rfl <;> rfl

theorem read_string {depth : Nat} {c : Char} {rest : List Char} {lexeme : Lexeme} {content : String}
    (reads : read depth c rest = .ok lexeme) (string : lexeme.kind = some (.string content)) :
    depth ≠ 0 ∧ (c = '"' ∨ c = '\'') ∧ ∃ q, readQuoted c rest = some q ∧
      lexeme = ⟨some (.string (String.ofList q.value)), c :: q.used, q.rest⟩ := by
  cases read_leads reads string with
  | string quote =>
    unfold read at reads
    split at reads
    · injection reads with outside
      subst outside
      unfold readOutside at string
      split at string <;> cases string
    · next inside =>
      rw [readInside_quote quote] at reads
      split at reads
      · next q found =>
        cases reads
        exact ⟨inside, quote, q, found, rfl⟩
      · cases reads

theorem read_quoted {depth : Nat} (inside : depth ≠ 0) {c : Char} (quote : c = '"' ∨ c = '\'') {rest : List Char}
    {q : Quoted} (found : readQuoted c rest = some q) :
    read depth c rest = .ok ⟨some (.string (String.ofList q.value)), c :: q.used, q.rest⟩ := by
  unfold read
  rw [if_neg inside, readInside_quote quote, found]

end Lexeme

-- What stands behind a lexeme is stripped, and the lexeme is read again from what is left.
structure ReadAgain (depth : Nat) (c : Char) (rest : List Char) (lexeme : Lexeme) (rest' : List Char)
    (lexeme' : Lexeme) : Prop where
  strips : stripComments (c :: rest) = c :: rest'
  reads : Lexeme.read depth c rest' = .ok lexeme'
  uncommented : lexeme.Uncommented lexeme'
  behind : lexeme'.rest = stripComments lexeme.rest
  depth : lexeme'.depthAfter depth = lexeme.depthAfter depth

section
variable {depth : Nat} {c : Char} {rest : List Char} {lexeme : Lexeme} {more : List Lexeme}
  (reads : Lexeme.read depth c rest = .ok lexeme) (cut : more.flatMap Lexeme.used = lexeme.rest)
include reads cut

theorem literal_again {content : String} (string : lexeme.kind = some (.string content))
    (contained : CommentsContained (lexeme :: more)) :
    ∃ rest' lexeme', ReadAgain depth c rest lexeme rest' lexeme' := by
  obtain ⟨bare, spells⟩ := contained.literals lexeme (by simp) content string
  have ends := contained.ends [] lexeme more
  obtain ⟨inside, quote, q, found, rfl⟩ := Lexeme.read_string reads string
  have no_slash : c ≠ '/' := by rcases quote with rfl | rfl <;> decide
  have opened (s : List Char) : stripComments (c :: s) = c :: stripComments s :=
    strip_cons fun slash => absurd slash no_slash
  have split : stripComments ((c :: q.used) ++ q.rest) = stripComments (c :: q.used) ++ stripComments q.rest := by
    apply strip_contained
    · intro inner outer opens
      have closed := ends inner outer rfl opens
      rwa [cut] at closed
    · intro front same
      obtain ⟨before, closing⟩ := readQuoted_ends found
      rw [closing, ← List.cons_append] at same
      exact no_slash (List.singleton_inj.mp (List.append_inj_right' same rfl))
  have uncommented : Lexeme.Uncommented ⟨some (.string (String.ofList q.value)), c :: q.used, q.rest⟩
      ⟨some (.string bare), stripComments (c :: q.used), stripComments q.rest⟩ := .literal spells
  rw [opened] at spells split uncommented
  cases spells with
  | quoted _ reads =>
    have again := readQuoted_behind reads (stripComments q.rest)
    rw [readQuoted_parts found]
    exact ⟨_, _, split, Lexeme.read_quoted inside quote again, uncommented, rfl, rfl⟩

theorem other_again (other : ∀ content, lexeme.kind ≠ some (.string content))
    (quoted : CommentsQuoted (lexeme :: more)) (first : (stripComments lexeme.rest).head? = lexeme.rest.head?) :
    ∃ rest' lexeme', ReadAgain depth c rest lexeme rest' lexeme' := by
  obtain ⟨parts, some_char⟩ := Lexeme.read_parts reads
  have plain : stripComments (lexeme.used ++ lexeme.rest) = lexeme.used ++ stripComments lexeme.rest := by
    apply strip_plain
    intro inner outer opens
    rw [← cut] at opens
    exact quoted.head other opens
  obtain ⟨kind, used, left⟩ := lexeme
  cases used with
  | nil => exact absurd rfl some_char
  | cons d used =>
    injection parts with same whole
    subst same whole
    exact ⟨used ++ stripComments left, _, plain, Lexeme.read_behind first reads other, .same other, rfl, rfl⟩

end

theorem Cut.stripped {depth : Nat} {s : List Char} {lexemes : List Lexeme} (cut : Cut depth s lexemes)
    (quoted : CommentsQuoted lexemes) (contained : CommentsContained lexemes) :
    ∃ bare, Cut depth (stripComments s) bare ∧ List.Forall₂ Lexeme.Uncommented lexemes bare ∧
      (stripComments s).head? = s.head? := by
  induction cut with
  | ended =>
    rw [strip_nil]
    exact ⟨[], .ended, .nil, rfl⟩
  | @next depth c rest lexeme more reads cut ih =>
    obtain ⟨bare, further, alike, first⟩ := ih quoted.tail contained.tail
    have again : ∃ rest' lexeme', ReadAgain depth c rest lexeme rest' lexeme' := by
      by_cases string : ∃ content, lexeme.kind = some (.string content)
      · obtain ⟨content, string⟩ := string
        exact literal_again reads cut.whole string contained
      · exact other_again reads cut.whole (fun content same => string ⟨content, same⟩) quoted first
    obtain ⟨rest', lexeme', again⟩ := again
    rw [again.strips]
    rw [← again.behind, ← again.depth] at further
    exact ⟨lexeme' :: bare, .next again.reads further, .cons again.uncommented alike, rfl⟩

end Switchboard.Source
