import Switchboard.Proofs.Documents
import Switchboard.Source.Parser

namespace Switchboard.Source

-- the values that one token stands for
inductive Literal : Json → Prop where
  | null : Literal .null
  | bool (b : Bool) : Literal (.bool b)
  | string (s : String) : Literal (.string s)
  | number (x : Float) : Literal (literalNumber x)

theorem Literal.kept {v : Json} (literal : Literal v)
    (reads : ∀ x, v = .number (.float x) → Json.ReadsBack v) : Json.Kept v := by
  cases literal with
  | null => exact Json.kept_null
  | bool b => exact Json.kept_bool b
  | string s => exact Json.kept_string s
  | number x =>
    unfold literalNumber at reads ⊢
    split
    · exact Json.kept_null
    · next b finite =>
      simp only [finite] at reads
      split
      · next n whole =>
        simp only [whole] at reads
        split
        · next range =>
          have low : -(twoTo 63 : Int) ≤ min n (twoTo 63 - 1) := by
            have : -(twoTo 63 : Int) ≤ (twoTo 63 : Int) - 1 := by decide
            omega
          have high : min n ((twoTo 63 : Int) - 1) < twoTo 64 := by
            have : (twoTo 63 : Int) - 1 < twoTo 64 := by decide
            omega
          exact Json.kept_int low high
        · next outside =>
          rw [if_neg outside] at reads
          exact Json.kept_float (reads x rfl)
      · next fractional =>
        simp only [fractional] at reads
        exact Json.kept_float (reads x rfl)

theorem mem_listLiterals {v : Json} {es : List Expr} :
    v ∈ Expr.listLiterals es ↔ ∃ e ∈ es, v ∈ e.literals := by
  induction es with
  | nil => simp [Expr.listLiterals]
  | cons e es ih => simp [Expr.listLiterals, ih]

theorem mem_entryLiterals {v : Json} {entries : List (String × Expr)} :
    v ∈ Expr.entryLiterals entries ↔ ∃ entry ∈ entries, v ∈ entry.2.literals := by
  induction entries with
  | nil => simp [Expr.entryLiterals]
  | cons entry entries ih =>
    obtain ⟨key, value⟩ := entry
    simp [Expr.entryLiterals, ih]

-- what a frame holds of the expressions read so far
def Frame.literals : Frame → List Json
  | .operator _ => []
  | .call _ args => Expr.listLiterals args
  | .array items => Expr.listLiterals items
  | .object entries => Expr.entryLiterals entries
  | .field entries _ _ => Expr.entryLiterals entries

namespace Reading

structure Spelled (s : Reading) : Prop where
  program : ∀ v ∈ literals s.program, Literal v
  stack : ∀ frame ∈ s.stack, ∀ v ∈ frame.literals, Literal v

variable {s : Reading}

theorem Spelled.push (spelled : s.Spelled) {frame : Frame} (literal : ∀ v ∈ frame.literals, Literal v) :
    (s.opening frame).Spelled := by
  refine ⟨spelled.program, ?_⟩
  intro f present
  rcases List.mem_cons.mp present with rfl | before
  · exact literal
  · exact spelled.stack f before

theorem Spelled.pop (spelled : s.Spelled) {frame : Frame} {outer : List Frame}
    (stack : s.stack = frame :: outer) : Spelled { s with stack := outer } :=
  ⟨spelled.program, fun f present => spelled.stack f (by simp [stack, present])⟩

theorem Spelled.replace (spelled : s.Spelled) {frame : Frame} {outer : List Frame}
    (stack : s.stack = frame :: outer) {grown : Frame} (literal : ∀ v ∈ grown.literals, Literal v) :
    Spelled { s with stack := grown :: outer } :=
  (spelled.pop stack).push literal

theorem complete_spelled (spelled : s.Spelled) {expr : Expr} (literal : ∀ v ∈ expr.literals, Literal v) :
    (s.complete expr).Spelled := by
  unfold complete
  split
  · next operator args outer stack =>
    apply spelled.replace stack
    intro v present
    simp only [Frame.literals, Expr.listLiterals, List.mem_append] at present
    rcases present with new | old
    · exact literal v new
    · exact spelled.stack (.call operator args) (by simp [stack]) v old
  · next items outer stack =>
    apply spelled.replace stack
    intro v present
    simp only [Frame.literals, Expr.listLiterals, List.mem_append] at present
    rcases present with new | old
    · exact literal v new
    · exact spelled.stack (.array items) (by simp [stack]) v old
  · next entries key colon outer stack =>
    apply spelled.replace stack
    intro v present
    simp only [Frame.literals, Expr.entryLiterals, List.mem_append] at present
    rcases present with new | old
    · exact literal v new
    · exact spelled.stack (.field entries key colon) (by simp [stack]) v old
  · next stack =>
    refine ⟨?_, spelled.stack⟩
    intro v present
    simp only [literals, List.flatMap_cons, List.mem_append] at present
    rcases present with new | old
    · exact literal v new
    · exact spelled.program v old
  · exact spelled
  · exact spelled

theorem closing_spelled (spelled : s.Spelled) {frame : Frame} {outer : List Frame}
    (stack : s.stack = frame :: outer) {expr : Expr} (literal : ∀ v ∈ expr.literals, Literal v) :
    (s.closing outer expr).Spelled := by
  exact complete_spelled (spelled.pop stack) literal

theorem nameExpr_literal (word : String) : ∀ v ∈ (nameExpr word).literals, Literal v := by
  unfold nameExpr
  intro v present
  split at present
  · cases List.mem_singleton.mp present
    exact .bool true
  · split at present
    · cases List.mem_singleton.mp present
      exact .bool false
    · split at present
      · cases List.mem_singleton.mp present
        exact .null
      · cases present

theorem begin_spelled (spelled : s.Spelled) {t : Token} {next : Reading} (begins : s.begin t = .ok next) :
    next.Spelled := by
  have opened (frame : Frame) (empty : frame.literals = []) : (s.opening frame).Spelled :=
    spelled.push (by simp [empty])
  unfold begin at begins
  split at begins <;> cases begins
  · exact opened _ rfl
  · exact opened _ rfl
  · exact opened _ rfl
  · next content _ =>
    refine complete_spelled spelled fun v present => ?_
    cases List.mem_singleton.mp present
    exact .string content
  · next x _ =>
    refine complete_spelled spelled fun v present => ?_
    cases List.mem_singleton.mp present
    exact .number x
  · next word _ => exact complete_spelled spelled (nameExpr_literal word)

-- One case for each frame that can be innermost.
theorem step_spelled (spelled : s.Spelled) {t : Token} {next : Reading} (steps : s.step t = .ok next) :
    next.Spelled := by
  have inner {frame : Frame} {outer : List Frame} (stack : s.stack = frame :: outer) :
      ∀ v ∈ frame.literals, Literal v := spelled.stack frame (by simp [stack])
  unfold step at steps
  split at steps
  · unfold stepTop at steps
    split at steps <;> cases steps
    · exact ⟨by simpa [literals, Node.literals] using spelled.program, spelled.stack⟩
    · exact spelled.push (by simp [Frame.literals])
  · next opened outer stack =>
    unfold stepOperator at steps
    split at steps <;> cases steps
    exact spelled.replace stack (by simp [Frame.literals, Expr.listLiterals])
  · next operator args outer stack =>
    unfold stepCall at steps
    split at steps
    · cases steps
      refine closing_spelled spelled stack fun v present => inner stack v ?_
      simpa [Expr.literals, Frame.literals, mem_listLiterals] using present
    · cases steps
    · exact begin_spelled spelled steps
  · next items outer stack =>
    unfold stepArray at steps
    split at steps
    · cases steps
      refine closing_spelled spelled stack fun v present => inner stack v ?_
      simpa [Expr.literals, Frame.literals, mem_listLiterals] using present
    · cases steps
    · cases steps
    · cases steps
    · exact begin_spelled spelled steps
  · next entries outer stack =>
    unfold stepObject at steps
    split at steps <;> cases steps
    · refine closing_spelled spelled stack fun v present => inner stack v ?_
      simpa [Expr.literals, Frame.literals, mem_entryLiterals] using present
    · exact spelled.replace stack (fun v present => inner stack v present)
    · exact spelled.replace stack (fun v present => inner stack v present)
  · next entries key colon outer stack =>
    unfold stepField at steps
    split at steps
    · cases steps
      exact spelled.replace stack (fun v present => inner stack v present)
    · exact begin_spelled spelled steps

theorem run_spelled (tokens : List Token) : ∀ {s : Reading} {program : Program}, s.Spelled →
    s.run tokens = .ok program → ∀ v ∈ literals program, Literal v := by
  have reversed {s : Reading} (spelled : s.Spelled) : ∀ v ∈ literals s.program.reverse, Literal v := by
    intro v present
    exact spelled.program v (by simpa [literals] using present)
  induction tokens with
  | nil =>
    intro s program spelled runs
    unfold run at runs
    split at runs <;> cases runs
    exact reversed spelled
  | cons t rest ih =>
    intro s program spelled runs
    unfold run at runs
    split at runs
    · cases runs
      exact reversed spelled
    · split at runs
      · cases runs
      · next next steps => exact ih (step_spelled spelled steps) runs

end Reading

theorem parse_literals {code : String} {program : Program} (parses : parse code = .ok program) :
    ∀ v ∈ literals program, Literal v := by
  unfold parse at parses
  split at parses
  · cases parses
  · split at parses
    · cases parses
    · next parsed =>
      cases parses
      exact Reading.run_spelled _ ⟨by simp [literals], by simp⟩ parsed

end Switchboard.Source
