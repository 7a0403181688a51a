import Switchboard.Source.Parser

namespace Switchboard.Source

inductive Key where
  | name (word : String)
  | string (content : String)

def Key.token : Key → TokenKind
  | .name word => .name word
  | .string content => .string content

def Key.text : Key → String
  | .name word => word
  | .string content => content

-- An expression as it is written. Behind the key of a member there is a colon or none.
inductive Phrase where
  | call (operator : String) (args : List Phrase)
  | array (items : List Phrase)
  | object (members : List (Key × Bool × Phrase))
  | string (content : String)
  | number (value : Float)
  | name (word : String)

inductive Passage where
  | text (content : String)
  | call (operator : String) (args : List Phrase)

mutual

def Phrase.tokens : Phrase → List TokenKind
  | .call operator args => .parenOpen :: .name operator :: (Phrase.listTokens args ++ [.parenClose])
  | .array items => .bracketOpen :: (Phrase.listTokens items ++ [.bracketClose])
  | .object members => .braceOpen :: (Phrase.memberTokens members ++ [.braceClose])
  | .string content => [.string content]
  | .number value => [.number value]
  | .name word => [.name word]

def Phrase.listTokens : List Phrase → List TokenKind
  | [] => []
  | phrase :: rest => phrase.tokens ++ Phrase.listTokens rest

def Phrase.memberTokens : List (Key × Bool × Phrase) → List TokenKind
  | [] => []
  | (key, colon, value) :: rest =>
    key.token :: ((if colon then [.colon] else []) ++ (value.tokens ++ Phrase.memberTokens rest))

end

def Passage.tokens : Passage → List TokenKind
  | .text content => [.text content]
  | .call operator args => (Phrase.call operator args).tokens

def written (passages : List Passage) : List TokenKind :=
  passages.flatMap Passage.tokens

-- Three words are literals where an expression stands, and names like others where an operator or a key does.
mutual

def Phrase.expr : Phrase → Expr
  | .call operator args => .call operator (Phrase.exprs args)
  | .array items => .array (Phrase.exprs items)
  | .object members => .object (Phrase.entries members)
  | .string content => .literal (.string content)
  | .number value => .literal (literalNumber value)
  | .name "true" => .literal (.bool true)
  | .name "false" => .literal (.bool false)
  | .name "null" => .literal .null
  | .name word => .variable word

def Phrase.exprs : List Phrase → List Expr
  | [] => []
  | phrase :: rest => phrase.expr :: Phrase.exprs rest

def Phrase.entries : List (Key × Bool × Phrase) → List (String × Expr)
  | [] => []
  | (key, _, value) :: rest => (key.text, value.expr) :: Phrase.entries rest

end

def Passage.node : Passage → Node
  | .text content => .text content
  | .call operator args => .template (.call operator (Phrase.exprs args))

-- Tokens are the passages and nothing else, or the passages, an end, and anything.
inductive Written : List TokenKind → List Passage → Prop where
  | whole (passages : List Passage) : Written (written passages) passages
  | cut (passages : List Passage) (rest : List TokenKind) :
    Written (written passages ++ .eof :: rest) passages

theorem Written.cons {kinds : List TokenKind} {passages : List Passage} (first : Passage)
    (rest : Written kinds passages) : Written (first.tokens ++ kinds) (first :: passages) := by
  cases rest with
  | whole => exact .whole (first :: passages)
  | cut _ after =>
    rw [← List.append_assoc]
    exact .cut (first :: passages) after

theorem nameExpr_eq (word : String) : nameExpr word = (Phrase.name word).expr := by
  unfold nameExpr
  split
  · next same => rw [same, Phrase.expr]
  · split
    · next same => rw [same, Phrase.expr]
    · split
      · next same => rw [same, Phrase.expr]
      · next no no' no'' => rw [Phrase.expr] <;> assumption

def TokenKind.begins : TokenKind → Bool
  | .parenOpen | .bracketOpen | .braceOpen | .string _ | .number _ | .name _ => true
  | _ => false

namespace Reading

-- an expression is due, inside something that takes expressions
inductive Due : Reading → Prop where
  | call {program operator args outer} : Due ⟨program, .call operator args :: outer⟩
  | array {program items outer} : Due ⟨program, .array items :: outer⟩
  | field {program entries key colon outer} : Due ⟨program, .field entries key colon :: outer⟩

theorem step_due {s : Reading} (due : s.Due) {t : Token} (begins : t.kind.begins = true) :
    s.step t = s.begin t := by
  obtain ⟨position, kind⟩ := t
  cases due with
  | call => cases kind <;> first | rfl | cases begins
  | array => cases kind <;> first | rfl | cases begins
  | field => cases kind <;> first | rfl | cases begins

-- Whatever tokens of these kinds come, they take one reading to the other.
def Reads (s : Reading) (kinds : List TokenKind) (next : Reading) : Prop :=
  ∀ front rest : List Token, front.map Token.kind = kinds → s.run (front ++ rest) = next.run rest

variable {s middle next : Reading}

theorem Reads.nil (s : Reading) : Reads s [] s := by
  intro front rest same
  rw [List.map_eq_nil_iff.mp same]
  rfl

theorem Reads.append {one two : List TokenKind} (first : Reads s one middle) (second : Reads middle two next) :
    Reads s (one ++ two) next := by
  intro front rest same
  obtain ⟨left, right, rfl, left_kinds, right_kinds⟩ := List.map_eq_append_iff.mp same
  rw [List.append_assoc, first left _ left_kinds, second right _ right_kinds]

theorem run_step {t : Token} (going : (s.stack.isEmpty && t.kind.isEof) = false) (steps : s.step t = .ok next)
    (rest : List Token) : s.run (t :: rest) = next.run rest := by
  rw [run, if_neg (by simp [going]), steps]

theorem Reads.one {kind : TokenKind} (going : (s.stack.isEmpty && kind.isEof) = false)
    (steps : ∀ t : Token, t.kind = kind → s.step t = .ok next) : Reads s [kind] next := by
  intro front rest same
  obtain ⟨t, _, rfl, rfl, none⟩ := List.map_eq_cons_iff.mp same
  rw [List.map_eq_nil_iff.mp none]
  exact run_step going (steps t rfl) rest

-- The place of the parenthesis is forgotten when the operator is read.
theorem operator_reads (opens : ∀ t : Token, t.kind = .parenOpen → s.step t = .ok (s.opening (.operator t.position)))
    (operator : String) : Reads s [.parenOpen, .name operator] (s.opening (.call operator [])) := by
  intro front rest same
  obtain ⟨t, _, rfl, paren, same⟩ := List.map_eq_cons_iff.mp same
  obtain ⟨word, _, rfl, named, none⟩ := List.map_eq_cons_iff.mp same
  rw [List.map_eq_nil_iff.mp none]
  show s.run (t :: word :: rest) = _
  rw [run_step (by simp [paren, TokenKind.isEof]) (opens t paren)]
  refine run_step rfl ?_ rest
  simp only [step, opening, stepOperator, named]

theorem call_reads (opens : ∀ t : Token, t.kind = .parenOpen → s.step t = .ok (s.opening (.operator t.position)))
    (operator : String) {kinds : List TokenKind} {args : List Expr}
    (inside : Reads (s.opening (.call operator [])) kinds (s.opening (.call operator (args.reverse ++ [])))) :
    Reads s (.parenOpen :: .name operator :: (kinds ++ [.parenClose])) (s.complete (.call operator args)) := by
  have closed : Reads (s.opening (.call operator (args.reverse ++ []))) [.parenClose]
      (s.complete (.call operator args)) := by
    refine .one rfl fun t paren => ?_
    simp [step, stepCall, paren, closing, opening]
  exact (operator_reads opens operator).append (inside.append closed)

theorem due_going (due : s.Due) (kind : TokenKind) : (s.stack.isEmpty && kind.isEof) = false := by
  cases due <;> rfl

mutual

theorem phrase_reads : ∀ (phrase : Phrase) {s : Reading}, s.Due → Reads s phrase.tokens (s.complete phrase.expr)
  | .call operator args, s, due => by
    rw [Phrase.tokens, Phrase.expr]
    refine call_reads (fun t paren => ?_) operator (args_read args operator [] s.program s.stack)
    rw [step_due due (by rw [paren]; rfl), begin, paren]
  | .array items, s, due => by
    have opened : Reads s [.bracketOpen] (s.opening (.array [])) := by
      refine .one (due_going due _) fun t bracket => ?_
      rw [step_due due (by rw [bracket]; rfl), begin, bracket]
    have inside := items_read items [] s.program s.stack
    have closed : Reads ⟨s.program, .array ((Phrase.exprs items).reverse ++ []) :: s.stack⟩ [.bracketClose]
        (s.complete (.array (Phrase.exprs items))) := by
      refine .one rfl fun t bracket => ?_
      simp [step, stepArray, bracket, closing]
    rw [Phrase.tokens, Phrase.expr]
    exact opened.append (inside.append closed)
  | .object members, s, due => by
    have opened : Reads s [.braceOpen] (s.opening (.object [])) := by
      refine .one (due_going due _) fun t brace => ?_
      rw [step_due due (by rw [brace]; rfl), begin, brace]
    have inside := members_read members [] s.program s.stack
    have closed : Reads ⟨s.program, .object ((Phrase.entries members).reverse ++ []) :: s.stack⟩ [.braceClose]
        (s.complete (.object (Phrase.entries members))) := by
      refine .one rfl fun t brace => ?_
      simp [step, stepObject, brace, closing]
    rw [Phrase.tokens, Phrase.expr]
    exact opened.append (inside.append closed)
  | .string content, s, due => by
    refine .one (due_going due _) fun t same => ?_
    rw [step_due due (by rw [same]; rfl), begin, same, Phrase.expr]
  | .number value, s, due => by
    refine .one (due_going due _) fun t same => ?_
    rw [step_due due (by rw [same]; rfl), begin, same, Phrase.expr]
  | .name word, s, due => by
    refine .one (due_going due _) fun t same => ?_
    rw [step_due due (by rw [same]; rfl), begin, same, ← nameExpr_eq]

theorem args_read : ∀ (phrases : List Phrase) (operator : String) (args : List Expr) (program : List Node)
    (outer : List Frame), Reads ⟨program, .call operator args :: outer⟩ (Phrase.listTokens phrases)
      ⟨program, .call operator ((Phrase.exprs phrases).reverse ++ args) :: outer⟩
  | [], _, _, _, _ => Reads.nil _
  | phrase :: rest, operator, args, program, outer => by
    have first := phrase_reads phrase (s := ⟨program, .call operator args :: outer⟩) .call
    have more := args_read rest operator (phrase.expr :: args) program outer
    simpa only [Phrase.listTokens, Phrase.exprs, List.reverse_cons, List.append_assoc, List.singleton_append]
      using first.append more

theorem items_read : ∀ (phrases : List Phrase) (items : List Expr) (program : List Node) (outer : List Frame),
    Reads ⟨program, .array items :: outer⟩ (Phrase.listTokens phrases)
      ⟨program, .array ((Phrase.exprs phrases).reverse ++ items) :: outer⟩
  | [], _, _, _ => Reads.nil _
  | phrase :: rest, items, program, outer => by
    have first := phrase_reads phrase (s := ⟨program, .array items :: outer⟩) .array
    have more := items_read rest (phrase.expr :: items) program outer
    simpa only [Phrase.listTokens, Phrase.exprs, List.reverse_cons, List.append_assoc, List.singleton_append]
      using first.append more

theorem members_read : ∀ (members : List (Key × Bool × Phrase)) (entries : List (String × Expr))
    (program : List Node) (outer : List Frame),
    Reads ⟨program, .object entries :: outer⟩ (Phrase.memberTokens members)
      ⟨program, .object ((Phrase.entries members).reverse ++ entries) :: outer⟩
  | [], _, _, _ => Reads.nil _
  | (key, colon, value) :: rest, entries, program, outer => by
    have named : Reads ⟨program, .object entries :: outer⟩ [key.token]
        ⟨program, .field entries key.text false :: outer⟩ := by
      refine .one rfl fun t same => ?_
      cases key <;> simp [step, stepObject, same, Key.token, Key.text]
    have parted : Reads ⟨program, .field entries key.text false :: outer⟩ (if colon then [.colon] else [])
        ⟨program, .field entries key.text colon :: outer⟩ := by
      cases colon with
      | false => exact .nil _
      | true => exact .one rfl fun t same => by simp [step, stepField, same]
    have valued := phrase_reads value (s := ⟨program, .field entries key.text colon :: outer⟩) .field
    have more := members_read rest ((key.text, value.expr) :: entries) program outer
    simpa only [Phrase.memberTokens, Phrase.entries, List.reverse_cons, List.append_assoc, List.singleton_append]
      using named.append (parted.append (valued.append more))

end

theorem passages_read (passages : List Passage) : ∀ program : List Node,
    Reads ⟨program, []⟩ (written passages) ⟨(passages.map Passage.node).reverse ++ program, []⟩ := by
  induction passages with
  | nil => exact fun _ => .nil _
  | cons passage rest ih =>
    intro program
    have first : Reads ⟨program, []⟩ passage.tokens ⟨passage.node :: program, []⟩ := by
      cases passage with
      | text content =>
        refine .one rfl fun t same => ?_
        simp [step, stepTop, same, Passage.node]
      | call operator args =>
        rw [Passage.tokens, Phrase.tokens, Passage.node]
        exact call_reads (fun t paren => by simp [step, stepTop, paren]) operator
          (args_read args operator [] program [])
    simpa [written] using first.append (ih (passage.node :: program))

theorem run_written {tokens : List Token} {passages : List Passage}
    (derived : Written (tokens.map Token.kind) passages) :
    Reading.run {} tokens = .ok (passages.map Passage.node) := by
  have reads := passages_read passages []
  generalize kinds : tokens.map Token.kind = found at derived
  cases derived with
  | whole =>
    have ran := reads tokens [] kinds
    rw [List.append_nil] at ran
    rw [ran]
    simp [run]
  | cut _ rest =>
    obtain ⟨front, back, rfl, same, ended⟩ := List.map_eq_append_iff.mp kinds
    obtain ⟨t, after, rfl, eof, _⟩ := List.map_eq_cons_iff.mp ended
    rw [reads front _ same]
    simp [run, eof, TokenKind.isEof]

-- what can follow a reading, and the program that comes of it: derivations of all that is still open, one
-- after the other, and of the passages behind it
inductive Continues : Reading → List TokenKind → Program → Prop where
  | between {program kinds passages} : Written kinds passages →
    Continues ⟨program, []⟩ kinds (program.reverse ++ passages.map Passage.node)
  | operator {program opened outer operator args rest result} :
    Continues (complete ⟨program, outer⟩ (.call operator (Phrase.exprs args))) rest result →
    Continues ⟨program, .operator opened :: outer⟩
      (.name operator :: (Phrase.listTokens args ++ .parenClose :: rest)) result
  | call {program operator done outer args rest result} :
    Continues (complete ⟨program, outer⟩ (.call operator (done.reverse ++ Phrase.exprs args))) rest result →
    Continues ⟨program, .call operator done :: outer⟩ (Phrase.listTokens args ++ .parenClose :: rest) result
  | array {program done outer items rest result} :
    Continues (complete ⟨program, outer⟩ (.array (done.reverse ++ Phrase.exprs items))) rest result →
    Continues ⟨program, .array done :: outer⟩ (Phrase.listTokens items ++ .bracketClose :: rest) result
  | object {program done outer members rest result} :
    Continues (complete ⟨program, outer⟩ (.object (done.reverse ++ Phrase.entries members))) rest result →
    Continues ⟨program, .object done :: outer⟩ (Phrase.memberTokens members ++ .braceClose :: rest) result
  | field {program done key seen outer colon value rest result} : (seen = true → colon = false) →
    Continues ⟨program, .object ((key, Phrase.expr value) :: done) :: outer⟩ rest result →
    Continues ⟨program, .field done key seen :: outer⟩
      ((if colon then [.colon] else []) ++ (value.tokens ++ rest)) result

theorem Continues.grow (due : s.Due) (phrase : Phrase) {rest : List TokenKind} {result : Program}
    (after : Continues (s.complete phrase.expr) rest result) : Continues s (phrase.tokens ++ rest) result := by
  cases due with
  | call =>
    cases after with
    | @call _ _ _ _ args rest _ after =>
      have grown := @Continues.call _ _ _ _ (phrase :: args) _ _ (by simpa [Phrase.exprs] using after)
      simpa only [Phrase.listTokens, List.append_assoc] using grown
  | array =>
    cases after with
    | @array _ _ _ items rest _ after =>
      have grown := @Continues.array _ _ _ (phrase :: items) _ _ (by simpa [Phrase.exprs] using after)
      simpa only [Phrase.listTokens, List.append_assoc] using grown
  | field => exact @Continues.field _ _ _ _ _ false _ _ _ (fun _ => rfl) after

theorem begin_continues {t : Token} (begins : s.begin t = .ok next) {kinds : List TokenKind} {result : Program}
    (after : Continues next kinds result) : ∃ (phrase : Phrase) (rest : List TokenKind),
      t.kind :: kinds = phrase.tokens ++ rest ∧ Continues (s.complete phrase.expr) rest result := by
  unfold begin at begins
  split at begins <;> cases begins
  · next paren =>
    cases after with
    | @operator _ _ _ operator args rest _ after =>
      exact ⟨.call operator args, rest, by simp [paren, Phrase.tokens], by simpa only [Phrase.expr] using after⟩
  · next bracket =>
    cases after with
    | @array _ _ _ items rest _ after =>
      exact ⟨.array items, rest, by simp [bracket, Phrase.tokens], by simpa [Phrase.expr] using after⟩
  · next brace =>
    cases after with
    | @object _ _ _ members rest _ after =>
      exact ⟨.object members, rest, by simp [brace, Phrase.tokens], by simpa [Phrase.expr] using after⟩
  · next content same => exact ⟨.string content, kinds, by simp [same, Phrase.tokens], by rwa [Phrase.expr]⟩
  · next value same => exact ⟨.number value, kinds, by simp [same, Phrase.tokens], by rwa [Phrase.expr]⟩
  · next word same => exact ⟨.name word, kinds, by simp [same, Phrase.tokens], by rwa [← nameExpr_eq]⟩

theorem due_continues (due : s.Due) {t : Token} (begins : s.begin t = .ok next) {kinds : List TokenKind}
    {result : Program} (after : Continues next kinds result) : Continues s (t.kind :: kinds) result := by
  obtain ⟨phrase, rest, same, after⟩ := begin_continues begins after
  rw [same]
  exact after.grow due phrase

theorem top_continues {program : List Node} {t : Token} (steps : stepTop ⟨program, []⟩ t = .ok next)
    {kinds : List TokenKind} {result : Program} (after : Continues next kinds result) :
    Continues ⟨program, []⟩ (t.kind :: kinds) result := by
  unfold stepTop at steps
  split at steps <;> cases steps
  · next content same =>
    cases after with
    | between derived =>
      have longer := @Continues.between program _ _ (derived.cons (.text content))
      simpa [same, Passage.tokens, Passage.node] using longer
  · next paren =>
    cases after with
    | @operator _ _ _ operator args rest _ after =>
      cases after with
      | between derived =>
        have longer := @Continues.between program _ _ (derived.cons (.call operator args))
        simpa [paren, Passage.tokens, Phrase.tokens, Passage.node] using longer

theorem object_continues {program : List Node} {entries : List (String × Expr)} {outer : List Frame} {t : Token}
    (steps : stepObject ⟨program, .object entries :: outer⟩ outer entries t = .ok next)
    {kinds : List TokenKind} {result : Program} (after : Continues next kinds result) :
    Continues ⟨program, .object entries :: outer⟩ (t.kind :: kinds) result := by
  -- a key begins a member, and the members behind it are those of the object
  have member (key : Key) (same : t.kind = key.token)
      (after : Continues ⟨program, .field entries key.text false :: outer⟩ kinds result) :
      Continues ⟨program, .object entries :: outer⟩ (t.kind :: kinds) result := by
    cases after with
    | @field _ _ _ _ _ colon value _ _ _ after =>
      cases after with
      | @object _ _ _ members rest _ after =>
        have longer := @Continues.object _ _ _ ((key, colon, value) :: members) _ _
          (by simpa [Phrase.entries] using after)
        simpa [same, Phrase.memberTokens] using longer
  unfold stepObject at steps
  split at steps <;> cases steps
  · next brace =>
    rw [brace]
    exact @Continues.object _ _ _ [] _ _ (by simpa [Phrase.entries, closing] using after)
  · next key same => exact member (.name key) same after
  · next key same => exact member (.string key) same after

-- One token is the beginning of what follows, whatever is innermost.
theorem step_continues {t : Token} (steps : s.step t = .ok next) {kinds : List TokenKind} {result : Program}
    (after : Continues next kinds result) : Continues s (t.kind :: kinds) result := by
  obtain ⟨program, stack⟩ := s
  unfold step at steps
  split at steps <;> rename_i same <;> cases same
  · exact top_continues steps after
  · unfold stepOperator at steps
    split at steps <;> cases steps
    next word named =>
    rw [named]
    cases after with
    | call after => exact .operator (by simpa using after)
  · unfold stepCall at steps
    split at steps
    · next paren =>
      cases steps
      rw [paren]
      exact @Continues.call _ _ _ _ [] _ _ (by simpa [Phrase.exprs, closing] using after)
    · cases steps
    · exact due_continues .call steps after
  · unfold stepArray at steps
    split at steps
    · next bracket =>
      cases steps
      rw [bracket]
      exact @Continues.array _ _ _ [] _ _ (by simpa [Phrase.exprs, closing] using after)
    · cases steps
    · cases steps
    · cases steps
    · exact due_continues .array steps after
  · exact object_continues steps after
  · unfold stepField at steps
    split at steps
    · next colon =>
      cases steps
      rw [colon]
      cases after with
      | @field _ _ _ _ _ second value rest _ once after =>
        have none : second = false := once rfl
        subst none
        exact @Continues.field _ _ _ _ _ true _ _ _ (by simp) after
    · exact due_continues .field steps after

theorem run_continues (tokens : List Token) : ∀ {s : Reading} {result : Program}, s.run tokens = .ok result →
    Continues s (tokens.map Token.kind) result := by
  induction tokens with
  | nil =>
    rintro ⟨program, stack⟩ result runs
    unfold run at runs
    split at runs <;> cases runs
    next empty =>
    cases List.isEmpty_iff.mp empty
    simpa [written] using @Continues.between program _ _ (.whole [])
  | cons t rest ih =>
    rintro ⟨program, stack⟩ result runs
    unfold run at runs
    split at runs
    · next ends =>
      cases runs
      obtain ⟨empty, eof⟩ := Bool.and_eq_true_iff.mp ends
      cases List.isEmpty_iff.mp empty
      have kind : t.kind = .eof := by
        generalize t.kind = kind at eof
        cases kind <;> first | rfl | cases eof
      rw [List.map_cons, kind]
      simpa [written] using @Continues.between program _ _ (.cut [] (rest.map Token.kind))
    · split at runs
      · cases runs
      · next steps => exact step_continues steps (ih runs)

end Reading

theorem phrase_begins (phrase : Phrase) : ∃ kind more, phrase.tokens = kind :: more ∧ kind.begins = true := by
  cases phrase <;> exact ⟨_, _, by rw [Phrase.tokens], rfl⟩

theorem key_same {key key' : Key} (same : key.token = key'.token) : key = key' := by
  cases key <;> cases key' <;> simp_all [Key.token]

-- No row of tokens is two derivations; whatever comes behind a derivation, its end is told by the tokens.
mutual

theorem phrase_unique : ∀ (phrase other : Phrase) {rest rest' : List TokenKind},
    phrase.tokens ++ rest = other.tokens ++ rest' → phrase = other ∧ rest = rest'
  | .call operator args, other, rest, rest', same => by
    cases other with
    | call operator' args' =>
      simp only [Phrase.tokens, List.cons_append, List.append_assoc, List.cons.injEq, TokenKind.name.injEq,
        true_and, List.nil_append] at same
      obtain ⟨rfl, same⟩ := same
      obtain ⟨rfl, _, rfl⟩ := phrases_unique args args' rfl rfl same
      exact ⟨rfl, rfl⟩
    | _ => simp [Phrase.tokens] at same
  | .array items, other, rest, rest', same => by
    cases other with
    | array items' =>
      simp only [Phrase.tokens, List.cons_append, List.append_assoc, List.cons.injEq, true_and,
        List.nil_append] at same
      obtain ⟨rfl, _, rfl⟩ := phrases_unique items items' rfl rfl same
      exact ⟨rfl, rfl⟩
    | _ => simp [Phrase.tokens] at same
  | .object members, other, rest, rest', same => by
    cases other with
    | object members' =>
      simp only [Phrase.tokens, List.cons_append, List.append_assoc, List.cons.injEq, true_and,
        List.nil_append] at same
      obtain ⟨rfl, rfl⟩ := members_unique members members' same
      exact ⟨rfl, rfl⟩
    | _ => simp [Phrase.tokens] at same
  | .string content, other, rest, rest', same => by
    cases other <;> simp_all [Phrase.tokens]
  | .number value, other, rest, rest', same => by
    cases other <;> simp_all [Phrase.tokens]
  | .name word, other, rest, rest', same => by
    cases other <;> simp_all [Phrase.tokens]

theorem phrases_unique : ∀ (phrases others : List Phrase) {kind kind' : TokenKind} {rest rest' : List TokenKind},
    kind.begins = false → kind'.begins = false →
    Phrase.listTokens phrases ++ kind :: rest = Phrase.listTokens others ++ kind' :: rest' →
    phrases = others ∧ kind = kind' ∧ rest = rest'
  | [], [], _, _, _, _, _, _, same => by
    obtain ⟨rfl, rfl⟩ := List.cons.inj same
    exact ⟨rfl, rfl, rfl⟩
  | [], other :: others, kind, _, _, _, ends, _, same => by
    obtain ⟨first, more, tokens, begins⟩ := phrase_begins other
    simp only [Phrase.listTokens, tokens, List.nil_append, List.cons_append, List.cons.injEq] at same
    rw [← same.1, ends] at begins
    cases begins
  | phrase :: phrases, [], _, kind', _, _, _, ends, same => by
    obtain ⟨first, more, tokens, begins⟩ := phrase_begins phrase
    simp only [Phrase.listTokens, tokens, List.nil_append, List.cons_append, List.cons.injEq] at same
    rw [same.1, ends] at begins
    cases begins
  | phrase :: phrases, other :: others, _, _, _, _, ends, ends', same => by
    simp only [Phrase.listTokens, List.append_assoc] at same
    obtain ⟨first, more⟩ := phrase_unique phrase other same
    obtain ⟨later, kind, rest⟩ := phrases_unique phrases others ends ends' more
    exact ⟨by rw [first, later], kind, rest⟩

theorem members_unique : ∀ (members others : List (Key × Bool × Phrase)) {rest rest' : List TokenKind},
    Phrase.memberTokens members ++ .braceClose :: rest = Phrase.memberTokens others ++ .braceClose :: rest' →
    members = others ∧ rest = rest'
  | [], [], _, _, same => ⟨rfl, (List.cons.inj same).2⟩
  | [], (key, _, _) :: _, _, _, same => by
    cases key <;> simp [Phrase.memberTokens, Key.token] at same
  | (key, _, _) :: _, [], _, _, same => by
    cases key <;> simp [Phrase.memberTokens, Key.token] at same
  | (key, colon, value) :: members, (key', colon', value') :: others, rest, rest', same => by
    simp only [Phrase.memberTokens, List.cons_append, List.append_assoc, List.cons.injEq] at same
    obtain ⟨first, after⟩ := same
    -- no value begins with a colon
    have colons : colon = colon' := by
      obtain ⟨kind, more, tokens, begins⟩ := phrase_begins value
      obtain ⟨kind', more', tokens', begins'⟩ := phrase_begins value'
      rw [tokens, tokens'] at after
      cases colon <;> cases colon' <;> simp at after
      · rfl
      · rw [after.1] at begins
        cases begins
      · rw [← after.1] at begins'
        cases begins'
      · rfl
    rw [colons] at after ⊢
    obtain ⟨valued, later⟩ := phrase_unique value value' (List.append_cancel_left after)
    obtain ⟨more, rest⟩ := members_unique members others later
    exact ⟨by rw [key_same first, valued, more], rest⟩

end

theorem passage_unique {passage other : Passage} {rest rest' : List TokenKind}
    (same : passage.tokens ++ rest = other.tokens ++ rest') : passage = other ∧ rest = rest' := by
  cases passage with
  | text content =>
    cases other with
    | text content' => simpa [Passage.tokens] using same
    | call operator args => simp [Passage.tokens, Phrase.tokens] at same
  | call operator args =>
    cases other with
    | text content => simp [Passage.tokens, Phrase.tokens] at same
    | call operator' args' =>
      obtain ⟨phrase, rest⟩ := phrase_unique (.call operator args) (.call operator' args') same
      cases phrase
      exact ⟨rfl, rest⟩

theorem passages_unique (passages : List Passage) : ∀ (others : List Passage) {rest rest' : List TokenKind},
    (rest = [] ∨ rest.head? = some .eof) → (rest' = [] ∨ rest'.head? = some .eof) →
    written passages ++ rest = written others ++ rest' → passages = others := by
  have begins (passage : Passage) (more rest : List TokenKind) (ended : rest = [] ∨ rest.head? = some .eof) :
      rest ≠ passage.tokens ++ more := by
    cases passage <;> rcases ended with rfl | ended <;>
      simp [Passage.tokens, Phrase.tokens] <;> rintro rfl <;> simp at ended
  induction passages with
  | nil =>
    intro others rest rest' ended _ same
    cases others with
    | nil => rfl
    | cons other others =>
      refine absurd same ?_
      simpa [written] using begins other _ rest ended
  | cons passage passages ih =>
    intro others rest rest' ended ended' same
    cases others with
    | nil =>
      refine absurd same.symm ?_
      simpa [written] using begins passage _ rest' ended'
    | cons other others =>
      simp only [written, List.flatMap_cons, List.append_assoc] at same
      obtain ⟨first, more⟩ := passage_unique same
      rw [first, ih others ended ended' more]

theorem Written.unique {kinds : List TokenKind} {one other : List Passage} (first : Written kinds one)
    (second : Written kinds other) : one = other := by
  have split {passages : List Passage} (derived : Written kinds passages) :
      ∃ rest, (rest = [] ∨ rest.head? = some .eof) ∧ kinds = written passages ++ rest := by
    cases derived with
    | whole => exact ⟨[], .inl rfl, by simp⟩
    | cut _ rest => exact ⟨.eof :: rest, .inr rfl, rfl⟩
  obtain ⟨rest, ended, same⟩ := split first
  obtain ⟨rest', ended', same'⟩ := split second
  exact passages_unique one other ended ended' (same.symm.trans same')

-- Parsing succeeds on exactly the tokens that have a derivation, with what the derivation is read as; and
-- there is only one derivation.
theorem parses_grammar (tokens : List Token) :
    (∀ program, parseTokens tokens = .ok program ↔
      ∃ passages, Written (tokens.map Token.kind) passages ∧ passages.map Passage.node = program) ∧
    ∀ one other, Written (tokens.map Token.kind) one → Written (tokens.map Token.kind) other → one = other := by
  refine ⟨fun program => ⟨?_, ?_⟩, fun one other first second => first.unique second⟩
  · intro parses
    have continues := Reading.run_continues tokens parses
    generalize tokens.map Token.kind = kinds at continues
    cases continues with
    | between derived => exact ⟨_, derived, by simp⟩
  · rintro ⟨passages, derived, rfl⟩
    exact Reading.run_written derived

-- the same word as operator, as key and as value; with tokens left behind the end
theorem parses_grammar_words :
    let passages : List Passage :=
      [.text "a", .call "true" [.object [(.name "true", true, .string "x"), (.string "true", false, .name "true")]]]
    let tokens : List Token :=
      [.text "a", .parenOpen, .name "true", .braceOpen, .name "true", .colon, .string "x", .string "true",
        .name "true", .braceClose, .parenClose, .eof, .parenClose].map (Token.mk ⟨1, 1⟩)
    Written (tokens.map Token.kind) passages ∧
      parseTokens tokens = .ok [.text "a", .template (.call "true"
        [.object [("true", .literal (.string "x")), ("true", .literal (.bool true))]])] ∧
      ∀ other, Written (tokens.map Token.kind) other → other = passages := by
  intro passages tokens
  have derived : Written (tokens.map Token.kind) passages := .cut passages [.parenClose]
  obtain ⟨reads, unique⟩ := parses_grammar tokens
  exact ⟨derived, (reads _).mpr ⟨passages, derived, rfl⟩, fun other also => unique other passages also derived⟩

end Switchboard.Source
