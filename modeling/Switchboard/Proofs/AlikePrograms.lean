import Mathlib.Data.List.Forall2
import Switchboard.Source.Parser

namespace Switchboard.Source

-- `R` says which contents may stand for each other.
variable {R : String → String → Prop}

inductive TokenKind.Alike (R : String → String → Prop) : TokenKind → TokenKind → Prop where
  | same {kind} : (∀ content, kind ≠ .string content) → Alike R kind kind
  | string {content content'} : R content content' → Alike R (.string content) (.string content')

mutual

inductive Expr.Alike (R : String → String → Prop) : Expr → Expr → Prop where
  | string {content content'} : R content content' →
    Expr.Alike R (.literal (.string content)) (.literal (.string content'))
  | literal {value} : (∀ content, value ≠ .string content) → Expr.Alike R (.literal value) (.literal value)
  | variable {path} : Expr.Alike R (.variable path) (.variable path)
  | call {operator args args'} : List.Forall₂ (Expr.Alike R) args args' →
    Expr.Alike R (.call operator args) (.call operator args')
  | array {items items'} : List.Forall₂ (Expr.Alike R) items items' → Expr.Alike R (.array items) (.array items')
  | object {entries entries'} : List.Forall₂ (Entry.Alike R) entries entries' →
    Expr.Alike R (.object entries) (.object entries')

-- A key may be a name, and is the same then, or a string.
inductive Entry.Alike (R : String → String → Prop) : String × Expr → String × Expr → Prop where
  | entry {key key' value value'} : key = key' ∨ R key key' → Expr.Alike R value value' →
    Entry.Alike R (key, value) (key', value')

end

inductive Node.Alike (R : String → String → Prop) : Node → Node → Prop where
  | text {content} : Alike R (.text content) (.text content)
  | template {expr expr'} : expr.Alike R expr' → Alike R (.template expr) (.template expr')

inductive Frame.Alike (R : String → String → Prop) : Frame → Frame → Prop where
  | operator {opened opened'} : Alike R (.operator opened) (.operator opened')
  | call {operator args args'} : List.Forall₂ (Expr.Alike R) args args' →
    Alike R (.call operator args) (.call operator args')
  | array {items items'} : List.Forall₂ (Expr.Alike R) items items' → Alike R (.array items) (.array items')
  | object {entries entries'} : List.Forall₂ (Entry.Alike R) entries entries' →
    Alike R (.object entries) (.object entries')
  | field {entries entries' key key' colon} : List.Forall₂ (Entry.Alike R) entries entries' →
    key = key' ∨ R key key' → Alike R (.field entries key colon) (.field entries' key' colon)

theorem literalNumber_alike (x : Float) : Expr.Alike R (.literal (literalNumber x)) (.literal (literalNumber x)) := by
  refine .literal fun content same => ?_
  unfold literalNumber at same
  split at same
  · cases same
  · split at same
    · split at same <;> cases same
    · cases same

theorem nameExpr_alike (word : String) : (nameExpr word).Alike R (nameExpr word) := by
  unfold nameExpr
  split
  · exact .literal (by simp)
  · split
    · exact .literal (by simp)
    · split
      · exact .literal (by simp)
      · exact .variable

namespace Reading

structure Alike (R : String → String → Prop) (s s' : Reading) : Prop where
  program : List.Forall₂ (Node.Alike R) s.program s'.program
  stack : List.Forall₂ (Frame.Alike R) s.stack s'.stack

variable {s s' next : Reading} {t t' : Token}

theorem opening_alike (alike : s.Alike R s') {frame frame' : Frame} (frames : frame.Alike R frame') :
    (s.opening frame).Alike R (s'.opening frame') :=
  ⟨alike.program, .cons frames alike.stack⟩

theorem complete_alike (alike : s.Alike R s') {expr expr' : Expr} (exprs : expr.Alike R expr') :
    (s.complete expr).Alike R (s'.complete expr') := by
  obtain ⟨program, stack⟩ := s
  obtain ⟨program', stack'⟩ := s'
  obtain ⟨programs, begun⟩ := alike
  cases begun with
  | nil => exact ⟨.cons (.template exprs) programs, .nil⟩
  | cons frames outer =>
    cases frames with
    | operator => exact ⟨programs, .cons .operator outer⟩
    | call args => exact ⟨programs, .cons (.call (.cons exprs args)) outer⟩
    | array items => exact ⟨programs, .cons (.array (.cons exprs items)) outer⟩
    | object entries => exact ⟨programs, .cons (.object entries) outer⟩
    | field entries keys => exact ⟨programs, .cons (.object (.cons (.entry keys exprs) entries)) outer⟩

theorem closing_alike (alike : s.Alike R s') {outer outer' : List Frame}
    (frames : List.Forall₂ (Frame.Alike R) outer outer') {expr expr' : Expr} (exprs : expr.Alike R expr') :
    (s.closing outer expr).Alike R (s'.closing outer' expr') := by
  have bared : Reading.Alike R { s with stack := outer } { s' with stack := outer' } := ⟨alike.program, frames⟩
  exact complete_alike bared exprs

theorem begin_alike (alike : s.Alike R s') (kinds : t.kind.Alike R t'.kind) (begins : s.begin t = .ok next) :
    ∃ next', s'.begin t' = .ok next' ∧ next.Alike R next' := by
  obtain ⟨place, kind⟩ := t
  obtain ⟨place', kind'⟩ := t'
  cases kinds with
  | string contents =>
    cases begins
    exact ⟨_, rfl, complete_alike alike (.string contents)⟩
  | same other =>
    cases kind with
    | parenOpen =>
      cases begins
      exact ⟨_, rfl, opening_alike alike .operator⟩
    | bracketOpen =>
      cases begins
      exact ⟨_, rfl, opening_alike alike (.array .nil)⟩
    | braceOpen =>
      cases begins
      exact ⟨_, rfl, opening_alike alike (.object .nil)⟩
    | string content => exact absurd rfl (other content)
    | number x =>
      cases begins
      exact ⟨_, rfl, complete_alike alike (literalNumber_alike x)⟩
    | name word =>
      cases begins
      exact ⟨_, rfl, complete_alike alike (nameExpr_alike word)⟩
    | _ => cases begins

theorem stepTop_alike (alike : s.Alike R s') (kinds : t.kind.Alike R t'.kind) (steps : s.stepTop t = .ok next) :
    ∃ next', s'.stepTop t' = .ok next' ∧ next.Alike R next' := by
  obtain ⟨place, kind⟩ := t
  obtain ⟨place', kind'⟩ := t'
  cases kinds with
  | string => cases steps
  | same =>
    cases kind with
    | text content =>
      cases steps
      exact ⟨_, rfl, .cons .text alike.program, alike.stack⟩
    | parenOpen =>
      cases steps
      exact ⟨_, rfl, opening_alike alike .operator⟩
    | _ => cases steps

section
variable {outer outer' : List Frame} (alike : s.Alike R s') (frames : List.Forall₂ (Frame.Alike R) outer outer')
  (kinds : t.kind.Alike R t'.kind)
include alike frames kinds

theorem stepOperator_alike {opened opened' : Position} (steps : s.stepOperator outer opened t = .ok next) :
    ∃ next', s'.stepOperator outer' opened' t' = .ok next' ∧ next.Alike R next' := by
  obtain ⟨place, kind⟩ := t
  obtain ⟨place', kind'⟩ := t'
  cases kinds with
  | string => cases steps
  | same =>
    cases kind with
    | name word =>
      cases steps
      exact ⟨_, rfl, alike.program, .cons (.call .nil) frames⟩
    | _ => cases steps

theorem stepCall_alike {operator : String} {args args' : List Expr} (exprs : List.Forall₂ (Expr.Alike R) args args')
    (steps : s.stepCall outer operator args t = .ok next) :
    ∃ next', s'.stepCall outer' operator args' t' = .ok next' ∧ next.Alike R next' := by
  have begins (begins : s.begin t = .ok next) := begin_alike alike kinds begins
  obtain ⟨place, kind⟩ := t
  obtain ⟨place', kind'⟩ := t'
  cases kinds with
  | string => exact begins steps
  | same =>
    cases kind with
    | parenClose =>
      cases steps
      exact ⟨_, rfl, closing_alike alike frames (.call (List.rel_reverse exprs))⟩
    | eof => cases steps
    | _ => exact begins steps

theorem stepArray_alike {items items' : List Expr} (exprs : List.Forall₂ (Expr.Alike R) items items')
    (steps : s.stepArray outer items t = .ok next) :
    ∃ next', s'.stepArray outer' items' t' = .ok next' ∧ next.Alike R next' := by
  have begins (begins : s.begin t = .ok next) := begin_alike alike kinds begins
  obtain ⟨place, kind⟩ := t
  obtain ⟨place', kind'⟩ := t'
  cases kinds with
  | string => exact begins steps
  | same =>
    cases kind with
    | bracketClose =>
      cases steps
      exact ⟨_, rfl, closing_alike alike frames (.array (List.rel_reverse exprs))⟩
    | parenClose => cases steps
    | braceClose => cases steps
    | eof => cases steps
    | _ => exact begins steps

theorem stepObject_alike {entries entries' : List (String × Expr)}
    (members : List.Forall₂ (Entry.Alike R) entries entries') (steps : s.stepObject outer entries t = .ok next) :
    ∃ next', s'.stepObject outer' entries' t' = .ok next' ∧ next.Alike R next' := by
  obtain ⟨place, kind⟩ := t
  obtain ⟨place', kind'⟩ := t'
  cases kinds with
  | string contents =>
    cases steps
    exact ⟨_, rfl, alike.program, .cons (.field members (.inr contents)) frames⟩
  | same other =>
    cases kind with
    | braceClose =>
      cases steps
      exact ⟨_, rfl, closing_alike alike frames (.object (List.rel_reverse members))⟩
    | name key =>
      cases steps
      exact ⟨_, rfl, alike.program, .cons (.field members (.inl rfl)) frames⟩
    | string content => exact absurd rfl (other content)
    | _ => cases steps

theorem stepField_alike {entries entries' : List (String × Expr)} {key key' : String} {colon : Bool}
    (members : List.Forall₂ (Entry.Alike R) entries entries') (keys : key = key' ∨ R key key')
    (steps : s.stepField outer entries key colon t = .ok next) :
    ∃ next', s'.stepField outer' entries' key' colon t' = .ok next' ∧ next.Alike R next' := by
  have begins (begins : s.begin t = .ok next) := begin_alike alike kinds begins
  obtain ⟨place, kind⟩ := t
  obtain ⟨place', kind'⟩ := t'
  cases kinds with
  | string => exact begins steps
  | same =>
    cases kind with
    | colon =>
      cases colon with
      | false =>
        cases steps
        exact ⟨_, rfl, alike.program, .cons (.field members keys) frames⟩
      | true => cases steps
    | _ => exact begins steps

end

theorem step_alike (alike : s.Alike R s') (kinds : t.kind.Alike R t'.kind) (steps : s.step t = .ok next) :
    ∃ next', s'.step t' = .ok next' ∧ next.Alike R next' := by
  have begun := alike.stack
  unfold step at steps ⊢
  cases one : s.stack with
  | nil =>
    rw [one] at begun steps
    rw [List.forall₂_nil_left_iff.mp begun]
    exact stepTop_alike alike kinds steps
  | cons frame outer =>
    rw [one] at begun steps
    obtain ⟨frame', outer', frames, outers, other⟩ := List.forall₂_cons_left_iff.mp begun
    rw [other]
    cases frames with
    | operator => exact stepOperator_alike alike outers kinds steps
    | call args => exact stepCall_alike alike outers kinds args steps
    | array items => exact stepArray_alike alike outers kinds items steps
    | object entries => exact stepObject_alike alike outers kinds entries steps
    | field entries keys => exact stepField_alike alike outers kinds entries keys steps

theorem Alike.stack_empty (alike : s.Alike R s') : s'.stack.isEmpty = s.stack.isEmpty := by
  obtain ⟨program, stack⟩ := s
  obtain ⟨program', stack'⟩ := s'
  obtain ⟨_, begun⟩ := alike
  cases begun <;> rfl

end Reading

theorem TokenKind.Alike.isEof {kind kind' : TokenKind} (alike : kind.Alike R kind') : kind'.isEof = kind.isEof := by
  cases alike <;> rfl

-- Induction on the tokens; what has been read before them is alike.
theorem run_alike {tokens tokens' : List Token}
    (kinds : List.Forall₂ (fun t t' => t.kind.Alike R t'.kind) tokens tokens') {s s' : Reading} {program : Program}
    (alike : s.Alike R s') (runs : s.run tokens = .ok program) :
    ∃ program', s'.run tokens' = .ok program' ∧ List.Forall₂ (Node.Alike R) program program' := by
  induction kinds generalizing s s' with
  | nil =>
    unfold Reading.run at runs ⊢
    rw [alike.stack_empty]
    split at runs
    · next bare =>
      cases runs
      rw [if_pos bare]
      exact ⟨_, rfl, List.rel_reverse alike.program⟩
    · cases runs
  | cons kind _ ih =>
    unfold Reading.run at runs ⊢
    rw [alike.stack_empty, kind.isEof]
    split at runs
    · next ended =>
      cases runs
      rw [if_pos ended]
      exact ⟨_, rfl, List.rel_reverse alike.program⟩
    · next going =>
      split at runs
      · cases runs
      · next steps =>
        obtain ⟨next', steps', further⟩ := Reading.step_alike alike kind steps
        rw [if_neg going, steps']
        exact ih further runs

end Switchboard.Source
