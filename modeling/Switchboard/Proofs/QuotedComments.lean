import Switchboard.Proofs.AlikePrograms
import Switchboard.Proofs.StoredArtifacts
import Switchboard.Proofs.StrippedTexts

namespace Switchboard.Source

-- how many characters the text of a literal stands for; an escape is one
def units : List Char → Nat
  | [] => 0
  | '\\' :: _ :: rest => units rest + 1
  | _ :: rest => units rest + 1

theorem units_plain {c : Char} (plain : c ≠ '\\') (rest : List Char) : units (c :: rest) = units rest + 1 := by
  rw [units]
  intro _ _ escape
  exact absurd escape plain

-- A character more may escape another one, and so be none, but it takes none away.
theorem units_cons (c : Char) (s : List Char) : units s ≤ units (c :: s) ∧ units (c :: s) ≤ units s + 1 := by
  induction s generalizing c with
  | nil => simp [units]
  | cons d s ih =>
    by_cases escape : c = '\\'
    · subst escape
      obtain ⟨least, most⟩ := ih d
      rw [units]
      omega
    · rw [units_plain escape]
      omega

theorem units_suffix {s t : List Char} (behind : t <:+ s) : units t ≤ units s := by
  obtain ⟨front, rfl⟩ := behind
  induction front with
  | nil => exact Nat.le_refl _
  | cons c front ih => exact Nat.le_trans ih (units_cons c (front ++ t)).1

theorem units_behind {s t : List Char} (fewer : units t + 2 ≤ units s) (front : List Char) :
    units (front ++ t) < units (front ++ s) := by
  fun_induction units front with
  | case1 =>
    rw [List.nil_append, List.nil_append]
    omega
  | case2 c rest ih =>
    rw [List.cons_append, List.cons_append, List.cons_append, List.cons_append, units, units]
    omega
  | case3 c rest other ih =>
    by_cases escape : c = '\\'
    · -- what is escaped is the first character behind the front
      cases rest with
      | nil =>
        have most := (units_cons c t).2
        have least := (units_cons c s).1
        rw [List.singleton_append, List.singleton_append]
        omega
      | cons d rest => exact absurd rfl (other d rest escape)
    · rw [List.cons_append, List.cons_append, units_plain escape, units_plain escape]
      omega

-- A comment stands for more than the backslash could take with it that may come before it.
theorem strip_units (s front : List Char) :
    stripComments s = s ∨ units (front ++ stripComments s) < units (front ++ s) := by
  fun_induction stripComments s generalizing front with
  | case1 => exact .inl rfl
  | case2 rest after closes ih =>
    have shorter : units (front ++ after) < units (front ++ '/' :: '*' :: rest) := by
      apply units_behind
      have left := units_suffix (afterClosing_suffix closes)
      rw [units_plain (by decide), units_plain (by decide)]
      omega
    rcases ih front with same | fewer
    · exact .inr (by rwa [same])
    · exact .inr (Nat.lt_trans fewer shorter)
  | case3 rest => exact .inl rfl
  | case4 c rest other ih =>
    rcases ih (front ++ [c]) with same | fewer
    · exact .inl (by rw [same])
    · rw [List.append_assoc, List.append_assoc] at fewer
      exact .inr fewer

theorem readQuoted_units {quote : Char} {s : List Char} {q : Quoted} (reads : readQuoted quote s = some q) :
    units q.used = q.value.length + 1 := by
  fun_induction readQuoted quote s generalizing q with
  | case1 => cases reads
  | case2 => cases reads
  | case3 c more ih =>
    obtain ⟨inner, found, rfl⟩ := Option.map_eq_some_iff.mp reads
    rw [units, ih found, List.length_cons]
  | case4 more lone other =>
    cases reads
    exact units_plain (no_escape lone other) []
  | case5 c more lone other differs ih =>
    obtain ⟨inner, found, rfl⟩ := Option.map_eq_some_iff.mp reads
    rw [units_plain (no_escape lone other), ih found, List.length_cons]

theorem Spells.units {text : List Char} {content : String} (spells : Spells text content) :
    units text = content.length + 2 := by
  cases spells with
  | quoted quote reads =>
    have plain : ∀ c : Char, c = '"' ∨ c = '\'' → c ≠ '\\' := by
      rintro c (rfl | rfl) <;> decide
    rw [units_plain (plain _ quote), readQuoted_units reads, String.length_ofList]

theorem Spells.unique {text : List Char} {content content' : String} (spells : Spells text content)
    (spells' : Spells text content') : content = content' := by
  cases spells with
  | quoted _ reads =>
    cases spells' with
    | quoted _ reads' =>
      cases reads.symm.trans reads'
      rfl

-- A literal keeps what it holds exactly where no comment is taken out of it.
theorem Spells.kept_iff {text : List Char} {content bare : String} (spells : Spells text content)
    (spells' : Spells (stripComments text) bare) : bare = content ↔ stripComments text = text := by
  constructor
  · rintro rfl
    rcases strip_units text [] with same | fewer
    · exact same
    · have long := spells.units
      have short := spells'.units
      rw [List.nil_append, List.nil_append] at fewer
      omega
  · intro same
    rw [same] at spells'
    exact spells'.unique spells

theorem Cut.spells {depth : Nat} {s : List Char} {lexemes : List Lexeme} (cut : Cut depth s lexemes) :
    ∀ lexeme ∈ lexemes, ∀ content, lexeme.kind = some (.string content) → Spells lexeme.used content := by
  induction cut with
  | ended => simp
  | next reads _ ih =>
    intro lexeme present content string
    rcases List.mem_cons.mp present with rfl | later
    · obtain ⟨_, quote, q, found, rfl⟩ := Lexeme.read_string reads string
      cases string
      have alone := readQuoted_behind found []
      rw [List.append_nil] at alone
      exact .quoted quote alone
    · exact ih lexeme later content string

-- What a literal of a text holds, and what it holds without its comments: the same exactly where there are none.
def Loses (lexemes : List Lexeme) (content bare : String) : Prop :=
  ∃ lexeme ∈ lexemes, lexeme.kind = some (.string content) ∧ Spells (stripComments lexeme.used) bare ∧
    (bare = content ↔ stripComments lexeme.used = lexeme.used)

-- Induction on the lexemes that are left of the whole text.
theorem tokensOf_alike {depth : Nat} {s : List Char} {whole lexemes bare : List Lexeme} (cut : Cut depth s whole)
    (alike : List.Forall₂ Lexeme.Uncommented lexemes bare) (part : lexemes ⊆ whole) (position position' : Position) :
    List.Forall₂ (fun t t' => t.kind.Alike (Loses whole) t'.kind) (tokensOf position lexemes)
      (tokensOf position' bare) := by
  induction alike generalizing position position' with
  | nil => exact .cons (.same (by simp)) .nil
  | cons one _ ih =>
    rw [List.cons_subset] at part
    obtain ⟨present, others⟩ := part
    unfold tokensOf
    refine List.rel_append ?_ (ih others _ _)
    cases one with
    | @same kind _ _ _ other =>
      cases kind with
      | none => exact .nil
      | some kind => exact .cons (.same fun content same => other content (congrArg some same)) .nil
    | literal bared =>
      have spells := cut.spells _ present _ rfl
      exact .cons (.string ⟨_, present, rfl, bared, spells.kept_iff bared⟩) .nil

theorem Node.Alike.isTemplate {R : String → String → Prop} {node node' : Node} (alike : node.Alike R node') :
    node.isTemplate = node'.isTemplate := by
  cases alike <;> rfl

theorem parse_stripped {code : String} {lexemes : List Lexeme} (cut : Cut 0 code.toList lexemes)
    (quoted : CommentsQuoted lexemes) (contained : CommentsContained lexemes) {program : Program}
    (parses : parse code = .ok program) :
    ∃ program', parse (String.ofList (stripComments code.toList)) = .ok program' ∧
      List.Forall₂ (Node.Alike (Loses lexemes)) program program' := by
  obtain ⟨bare, cut', alike, _⟩ := cut.stripped quoted contained
  have scans := tokenize_cut.mpr ⟨lexemes, cut, rfl⟩
  have scans' : tokenize (String.ofList (stripComments code.toList)) = .ok (tokensOf {} bare) :=
    tokenize_cut.mpr ⟨bare, by rwa [String.toList_ofList], rfl⟩
  unfold parse at parses ⊢
  rw [scans] at parses
  rw [scans']
  dsimp only at parses ⊢
  split at parses
  · cases parses
  · next read =>
    cases parses
    have start : Reading.Alike (Loses lexemes) {} {} := ⟨.nil, .nil⟩
    obtain ⟨program', read', same⟩ := run_alike (tokensOf_alike cut alike (List.Subset.refl lexemes) {} {}) start read
    refine ⟨program', ?_, same⟩
    unfold parseTokens
    rw [read']

end Switchboard.Source

namespace Switchboard.ProgramCache
open Source

variable {c : ProgramCache} {path : FunctionPath} {code : String} {changed : Time}

theorem resolve_sourced (sourced : c.Sourced path code.toUTF8 changed) (missing : c.load path (.ofTime changed) = none)
    {program : Program} (parses : parse (String.ofList (stripComments code.toList)) = .ok program) :
    (c.resolve path).1 = .ok (program.filter Node.isTemplate) := by
  have compiles : compileText path code = .ok (program.filter Node.isTemplate) := by
    unfold compileText
    rw [parses]
  rw [resolve_miss sourced.fingerprint missing (sourced.compile.trans compiles)]

theorem literals_uncommented (sourced : c.Sourced path code.toUTF8 changed)
    (missing : c.load path (.ofTime changed) = none) {lexemes : List Lexeme} (cut : Cut 0 code.toList lexemes)
    (quoted : CommentsQuoted lexemes) {program : Program} (parses : parse code = .ok program) :
    ((∀ before after, code.toList = before ++ '/' :: '*' :: after → ¬ Closed after) →
      (c.resolve path).1 = .ok (program.filter Node.isTemplate)) ∧
    (CommentsContained lexemes → ∃ program', (c.resolve path).1 = .ok program' ∧
      List.Forall₂ (Node.Alike (Loses lexemes)) (program.filter Node.isTemplate) program') := by
  constructor
  · intro never
    apply resolve_sourced sourced missing
    rwa [strip_unclosed never, String.ofList_toList]
  · intro contained
    obtain ⟨program', parses', alike⟩ := parse_stripped cut quoted contained parses
    refine ⟨_, resolve_sourced sourced missing parses', ?_⟩
    exact List.rel_filter (fun _ _ same => iff_of_eq (congrArg (· = true) same.isTemplate)) alike

-- A literal may well hold what looks like the beginning of a comment and its end.
example : compileText ⟨"a"⟩ "(f 'text/*, */*')" = .ok [.template (.call "f" [.literal (.string "text*")])] := by cbv

def literalCall (content literal : String) : List Lexeme :=
  [⟨some .parenOpen, "(".toList, "f".toList ++ literal.toList ++ ")".toList⟩,
    ⟨some (.name "f"), "f".toList, literal.toList ++ ")".toList⟩,
    ⟨some (.string content), literal.toList, ")".toList⟩, ⟨some .parenClose, ")".toList, []⟩]

-- One literal in which a comment only begins, and one with a comment.
theorem literals_uncommented_call :
    (let c := sourceOnly "(f'/*')" ⟨5, 0⟩
    let program : Program := [.template (.call "f" [.literal (.string "/*")])]
    c.Sourced ⟨"a"⟩ "(f'/*')".toUTF8 ⟨5, 0⟩ ∧ c.load ⟨"a"⟩ (.ofTime ⟨5, 0⟩) = none ∧
    Cut 0 "(f'/*')".toList (literalCall "/*" "'/*'") ∧ CommentsQuoted (literalCall "/*" "'/*'") ∧
    parse "(f'/*')" = .ok program ∧
    (∀ before after, "(f'/*')".toList = before ++ '/' :: '*' :: after → ¬ Closed after) ∧
    (c.resolve ⟨"a"⟩).1 = .ok (program.filter Node.isTemplate)) ∧
    let c := sourceOnly "(f'a/*b*/c')" ⟨5, 0⟩
    let lexemes := literalCall "a/*b*/c" "'a/*b*/c'"
    let program : Program := [.template (.call "f" [.literal (.string "a/*b*/c")])]
    c.Sourced ⟨"a"⟩ "(f'a/*b*/c')".toUTF8 ⟨5, 0⟩ ∧ c.load ⟨"a"⟩ (.ofTime ⟨5, 0⟩) = none ∧
    Cut 0 "(f'a/*b*/c')".toList lexemes ∧ CommentsQuoted lexemes ∧ parse "(f'a/*b*/c')" = .ok program ∧
    CommentsContained lexemes ∧ ∃ program', (c.resolve ⟨"a"⟩).1 = .ok program' ∧
      List.Forall₂ (Node.Alike (Loses lexemes)) (program.filter Node.isTemplate) program' := by
  constructor
  · intro c program
    have sourced := sourceOnly_sourced "(f'/*')" ⟨5, 0⟩
    have missing := sourceOnly_missing "(f'/*')" ⟨5, 0⟩
    have cut : Cut 0 "(f'/*')".toList (literalCall "/*" "'/*'") := .next rfl (.next rfl (.next rfl (.next rfl .ended)))
    have quoted : CommentsQuoted (literalCall "/*" "'/*'") := by
      intro before after whole
      simp [literalCall, List.cons_eq_append_iff] at whole
      obtain ⟨rfl, rfl⟩ := whole
      exact ⟨(literalCall "/*" "'/*'").take 2, _, [_], "/*", ['\''], ['\''], rfl, rfl, rfl, rfl⟩
    have parses : parse "(f'/*')" = .ok program := by cbv
    have never : ∀ before after, "(f'/*')".toList = before ++ '/' :: '*' :: after → ¬ Closed after := by
      intro before after whole
      simp [List.cons_eq_append_iff] at whole
      obtain ⟨rfl, rfl⟩ := whole
      unfold Closed
      decide
    exact ⟨sourced, missing, cut, quoted, parses, never,
      (literals_uncommented sourced missing cut quoted parses).1 never⟩
  · intro c lexemes program
    have sourced := sourceOnly_sourced "(f'a/*b*/c')" ⟨5, 0⟩
    have missing := sourceOnly_missing "(f'a/*b*/c')" ⟨5, 0⟩
    have cut : Cut 0 "(f'a/*b*/c')".toList lexemes := .next rfl (.next rfl (.next rfl (.next rfl .ended)))
    have quoted : CommentsQuoted lexemes := by
      intro before after whole
      simp [lexemes, literalCall, List.cons_eq_append_iff] at whole
      obtain ⟨rfl, rfl⟩ := whole
      exact ⟨lexemes.take 2, _, lexemes.drop 3, "a/*b*/c", "'a".toList, "b*/c'".toList, rfl, rfl, rfl, rfl⟩
    have parses : parse "(f'a/*b*/c')" = .ok program := by cbv
    have contained : CommentsContained lexemes := by
      constructor
      · intro front lexeme back inner outer parts opens
        have present : lexeme ∈ lexemes := by simp [parts]
        simp only [lexemes, literalCall, List.mem_cons, List.not_mem_nil, or_false] at present
        rcases present with rfl | rfl | rfl | rfl <;> simp [List.cons_eq_append_iff] at opens
        obtain ⟨rfl, rfl⟩ := opens
        exact .inl ⟨['b'], ['c', '\''], rfl⟩
      · intro lexeme present content string
        simp only [lexemes, literalCall, List.mem_cons, List.not_mem_nil, or_false] at present
        rcases present with rfl | rfl | rfl | rfl <;> cases string
        have strips : stripComments "'a/*b*/c'".toList = "'ac'".toList := by cbv
        rw [strips]
        exact ⟨_, .quoted (.inr rfl) rfl⟩
    exact ⟨sourced, missing, cut, quoted, parses, contained,
      (literals_uncommented sourced missing cut quoted parses).2 contained⟩

end Switchboard.ProgramCache
