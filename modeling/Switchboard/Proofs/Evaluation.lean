import Switchboard.Eval.Program

namespace Switchboard.Eval
open Source

def Fault.isUnwinding : Fault → Bool
  | .unwinding _ => true
  | _ => false

-- The same value in related states, or the same fault in states related as that fault asks.
inductive Ends (ok : σ → τ → Prop) (ended : Fault → σ → τ → Prop) :
    Except Fault α × σ → Except Fault α × τ → Prop where
  | value : ok s t → Ends ok ended (.ok a, s) (.ok a, t)
  | fault : ended e s t → Ends ok ended (.error e, s) (.error e, t)

-- a value in a good state, or a fault in a state that is good for that fault
inductive Leaves (ok : σ → Prop) (ended : Fault → σ → Prop) : Except Fault α × σ → Prop where
  | value : ok s → Leaves ok ended (.ok a, s)
  | fault : ended e s → Leaves ok ended (.error e, s)

-- What holds of the state alone does not ask how it was reached.
theorem Leaves.of_state {ok : σ → Prop} {result : Except Fault α × σ} (good : ok result.2) :
    Leaves ok (fun _ => ok) result := by
  obtain ⟨r, s⟩ := result
  cases r with
  | ok a => exact .value good
  | error e => exact .fault good

theorem Leaves.state {ok : σ → Prop} {result : Except Fault α × σ}
    (leaves : Leaves ok (fun _ => ok) result) : ok result.2 := by
  cases leaves with
  | value good => exact good
  | fault good => exact good

namespace Run

def Agrees (ok : σ → τ → Prop) (ended : Fault → σ → τ → Prop) (m : Run σ α) (n : Run τ α) : Prop :=
  ∀ s t, ok s t → Ends ok ended (m s) (n t)

def Keeps (ok : σ → Prop) (ended : Fault → σ → Prop) (m : Run σ α) : Prop :=
  ∀ s, ok s → Leaves ok ended (m s)

variable {ok : σ → τ → Prop} {ended : Fault → σ → τ → Prop}

theorem agrees_pure (a : α) : Agrees ok ended (pure a : Run σ α) (pure a : Run τ α) :=
  fun _ _ related => .value related

theorem agrees_bind {m : Run σ α} {n : Run τ α} {f : α → Run σ β} {g : α → Run τ β}
    (first : Agrees ok ended m n) (next : ∀ a, Agrees ok ended (f a) (g a)) :
    Agrees ok ended (m >>= f) (n >>= g) := by
  intro s t related
  have ends := first s t related
  show Ends ok ended (Run.bind m f s) (Run.bind n g t)
  unfold Run.bind
  cases left : m s with
  | mk r s' =>
    cases right : n t with
    | mk r' t' =>
      rw [left, right] at ends
      cases ends with
      | value related' => exact next _ _ _ related'
      | fault related' => exact .fault related'

end Run

-- What two hosts need so that no program tells them apart. A fault of the evaluator itself may arise
-- in any related states; it never unwinds.
structure Host.Agrees (host : Host σ) (other : Host τ) (ok : σ → τ → Prop)
    (ended : Fault → σ → τ → Prop) : Prop where
  context : ∀ {s t}, ok s t → host.context s = other.context t
  assign : ∀ {s t} path value, ok s t →
    ok (host.withContext s ((host.context s).set path value))
      (other.withContext t ((other.context t).set path value))
  invoke : ∀ operator args, Run.Agrees ok ended (host.invoke operator args) (other.invoke operator args)
  quit : ∀ {e s t}, e.isUnwinding = false → ok s t → ended e s t

namespace Builtin

theorem operands_fault {b : Builtin} {args : List Json} {e : Fault}
    (failed : operands b args = .error e) : e.isUnwinding = false := by
  unfold operands at failed
  split at failed <;> cases failed
  rfl

theorem result_fault {x : Float} {e : Fault} (failed : result x = .error e) :
    e.isUnwinding = false := by
  unfold result at failed
  split at failed <;> cases failed
  rfl

theorem compareWith_fault {b : Builtin} {accept : Ordering → Bool} {args : List Json} {e : Fault}
    (failed : compareWith b accept args = .error e) : e.isUnwinding = false := by
  unfold compareWith at failed
  split at failed
  · split at failed <;> cases failed
    rfl
  · cases failed
    rfl

theorem computed_fault {b : Builtin} {args : List Json} {next : List Float → Except Fault Json}
    {e : Fault} (plain : ∀ {xs}, next xs = .error e → e.isUnwinding = false)
    (failed : (operands b args).bind next = .error e) : e.isUnwinding = false := by
  cases values : operands b args with
  | error e' =>
    rw [values] at failed
    cases failed
    exact operands_fault values
  | ok xs =>
    rw [values] at failed
    exact plain failed

theorem divide_fault {args : List Json} {e : Fault} (failed : divide args = .error e) :
    e.isUnwinding = false := by
  refine computed_fault ?_ failed
  intro xs failed
  split at failed
  · split at failed
    · cases failed
      rfl
    · exact result_fault failed
  · cases failed
    rfl

theorem length_fault {args : List Json} {e : Fault} (failed : length args = .error e) :
    e.isUnwinding = false := by
  unfold length at failed
  split at failed <;> cases failed
  rfl

theorem apply_fault {b : Builtin} {args : List Json} {e : Fault} (failed : b.apply args = .error e) :
    e.isUnwinding = false := by
  unfold apply at failed
  split at failed
  · cases b with
    | not | concat | array | json => cases failed
    | eq | ne =>
      simp only [run] at failed
      split at failed <;> cases failed
    | lt | le | gt | ge => exact compareWith_fault failed
    | add | mul | sub => exact computed_fault result_fault failed
    | div => exact divide_fault failed
    | len => exact length_fault failed
  · cases failed
    rfl

end Builtin

section
variable {ok : σ → τ → Prop} {ended : Fault → σ → τ → Prop} {host : Host σ} {other : Host τ}

theorem lookup_agrees (agree : host.Agrees other ok ended) (path : String) :
    Run.Agrees ok ended (host.lookup path) (other.lookup path) := by
  intro s t related
  unfold Host.lookup
  rw [agree.context related]
  exact .value related

theorem assign_agrees (agree : host.Agrees other ok ended) (path : String) (value : Json) :
    Run.Agrees ok ended (host.assign path value) (other.assign path value) :=
  fun _ _ related => .value (agree.assign path value related)

theorem fail_agrees (agree : host.Agrees other ok ended) {e : Fault} (plain : e.isUnwinding = false) :
    Run.Agrees ok ended (Run.fail e : Run σ α) (Run.fail e : Run τ α) :=
  fun _ _ related => .fault (agree.quit plain related)

theorem apply_agrees (agree : host.Agrees other ok ended) (operator : String) (args : List Json) :
    Run.Agrees ok ended (host.apply operator args) (other.apply operator args) := by
  unfold Host.apply
  cases Builtin.ofName? operator with
  | none => exact agree.invoke operator args
  | some b =>
    intro s t related
    cases computed : b.apply args with
    | ok value => simpa only [Run.ofExcept, computed] using .value related
    | error e =>
      have plain := Builtin.apply_fault computed
      simpa only [Run.ofExcept, computed] using .fault (agree.quit plain related)

theorem pathOf_agrees {m : Run σ Json} {n : Run τ Json} (target : Expr) (value : Run.Agrees ok ended m n) :
    Run.Agrees ok ended (pathOf target m) (pathOf target n) := by
  cases target <;> first
    | exact Run.agrees_pure _
    | exact Run.agrees_bind value fun _ => Run.agrees_pure _

-- one case for each form of expression and of operator
mutual

theorem evalExpr_agrees (agree : host.Agrees other ok ended) :
    ∀ expr, Run.Agrees ok ended (evalExpr host expr) (evalExpr other expr)
  | .literal value => Run.agrees_pure value
  | .variable path => lookup_agrees agree path
  | .array items => Run.agrees_bind (evalAll_agrees agree items) fun _ => Run.agrees_pure _
  | .object entries => evalEntries_agrees agree [] entries
  | .call operator args => by
    unfold evalExpr
    cases Form.ofName? operator with
    | none => exact Run.agrees_bind (evalAll_agrees agree args) fun values => apply_agrees agree operator values
    | some form =>
      cases form with
      | set => exact evalSet_agrees agree operator args
      | get => exact evalGet_agrees agree operator args
      | block => exact evalBlock_agrees agree .null args
      | branch => exact evalBranch_agrees agree operator args
      | all => exact evalWhile_agrees agree true (.bool true) args
      | any => exact evalWhile_agrees agree false (.bool false) args

theorem evalAll_agrees (agree : host.Agrees other ok ended) :
    ∀ items, Run.Agrees ok ended (evalAll host items) (evalAll other items)
  | [] => Run.agrees_pure []
  | item :: items =>
    Run.agrees_bind (evalExpr_agrees agree item) fun _ =>
      Run.agrees_bind (evalAll_agrees agree items) fun _ => Run.agrees_pure _

theorem evalEntries_agrees (agree : host.Agrees other ok ended) (done : Fields) :
    ∀ entries, Run.Agrees ok ended (evalEntries host done entries) (evalEntries other done entries)
  | [] => Run.agrees_pure (Json.object done)
  | (key, expr) :: entries =>
    Run.agrees_bind (evalExpr_agrees agree expr) fun value =>
      evalEntries_agrees agree (Entries.put key value done) entries

theorem evalBlock_agrees (agree : host.Agrees other ok ended) (last : Json) :
    ∀ args, Run.Agrees ok ended (evalBlock host last args) (evalBlock other last args)
  | [] => Run.agrees_pure last
  | arg :: args =>
    Run.agrees_bind (evalExpr_agrees agree arg) fun value => evalBlock_agrees agree value args

theorem evalWhile_agrees (agree : host.Agrees other ok ended) (wanted : Bool) (last : Json) :
    ∀ args, Run.Agrees ok ended (evalWhile host wanted last args) (evalWhile other wanted last args)
  | [] => Run.agrees_pure last
  | arg :: args => by
    refine Run.agrees_bind (evalExpr_agrees agree arg) fun value => ?_
    split
    · exact evalWhile_agrees agree wanted value args
    · exact Run.agrees_pure value

theorem evalBranch_agrees (agree : host.Agrees other ok ended) (operator : String) :
    ∀ args, Run.Agrees ok ended (evalBranch host operator args) (evalBranch other operator args)
  | [] => fail_agrees agree rfl
  | [_] => fail_agrees agree rfl
  | [cond, yes] => by
    refine Run.agrees_bind (evalExpr_agrees agree cond) fun test => ?_
    split
    · exact evalExpr_agrees agree yes
    · exact Run.agrees_pure _
  | [cond, yes, no] => by
    refine Run.agrees_bind (evalExpr_agrees agree cond) fun test => ?_
    split
    · exact evalExpr_agrees agree yes
    · exact evalExpr_agrees agree no
  | _ :: _ :: _ :: _ :: _ => fail_agrees agree rfl

theorem evalGet_agrees (agree : host.Agrees other ok ended) (operator : String) :
    ∀ args, Run.Agrees ok ended (evalGet host operator args) (evalGet other operator args)
  | [] => fail_agrees agree rfl
  | [target] =>
    Run.agrees_bind (pathOf_agrees target (evalExpr_agrees agree target)) fun path =>
      lookup_agrees agree path
  | _ :: _ :: _ => fail_agrees agree rfl

theorem evalSet_agrees (agree : host.Agrees other ok ended) (operator : String) :
    ∀ args, Run.Agrees ok ended (evalSet host operator args) (evalSet other operator args)
  | [] => fail_agrees agree rfl
  | [_] => fail_agrees agree rfl
  | [target, expr] => by
    refine Run.agrees_bind (pathOf_agrees target (evalExpr_agrees agree target)) fun path => ?_
    split
    · exact fail_agrees agree rfl
    · exact Run.agrees_bind (evalExpr_agrees agree expr) fun value => assign_agrees agree path value
  | _ :: _ :: _ :: _ => fail_agrees agree rfl

end

theorem evalNodes_agrees (agree : host.Agrees other ok ended) (last : Json) (program : Program) :
    Run.Agrees ok ended (evalNodes host last program) (evalNodes other last program) := by
  induction program generalizing last with
  | nil => exact Run.agrees_pure last
  | cons node nodes ih =>
    have first : Run.Agrees ok ended (evalNode host node) (evalNode other node) := by
      cases node with
      | text content => exact Run.agrees_pure _
      | template expr => exact evalExpr_agrees agree expr
    exact Run.agrees_bind first fun value => ih value

theorem evalProgram_agrees (agree : host.Agrees other ok ended) (program : Program) :
    Run.Agrees ok ended (evalProgram host program) (evalProgram other program) :=
  evalNodes_agrees agree .null program

end

-- what a host needs so that a property of its states outlasts every program
structure Host.Keeps (host : Host σ) (ok : σ → Prop) (ended : Fault → σ → Prop) : Prop where
  assign : ∀ {s} path value, ok s → ok (host.withContext s ((host.context s).set path value))
  invoke : ∀ operator args, Run.Keeps ok ended (host.invoke operator args)
  quit : ∀ {e s}, e.isUnwinding = false → ok s → ended e s

section
variable {host : Host σ} {ok : σ → Prop} {ended : Fault → σ → Prop}

theorem Host.Keeps.agrees (keep : host.Keeps ok ended) :
    host.Agrees host (fun s t => s = t ∧ ok s) (fun e s t => s = t ∧ ended e s) := by
  refine ⟨?_, ?_, ?_, ?_⟩
  · intro s _ related
    obtain ⟨rfl, _⟩ := related
    rfl
  · intro s _ path value related
    obtain ⟨rfl, good⟩ := related
    exact ⟨rfl, keep.assign path value good⟩
  · intro operator args s _ related
    obtain ⟨rfl, good⟩ := related
    have leaves := keep.invoke operator args s good
    generalize host.invoke operator args s = ended' at leaves
    cases leaves with
    | value good' => exact .value ⟨rfl, good'⟩
    | fault good' => exact .fault ⟨rfl, good'⟩
  · intro e s _ plain related
    obtain ⟨rfl, good⟩ := related
    exact ⟨rfl, keep.quit plain good⟩

theorem Run.Agrees.keeps {m : Run σ α}
    (agree : Run.Agrees (fun s t => s = t ∧ ok s) (fun e s t => s = t ∧ ended e s) m m) :
    Run.Keeps ok ended m := by
  intro s good
  have ends := agree s s ⟨rfl, good⟩
  generalize m s = result at ends
  cases ends with
  | value related => exact .value related.2
  | fault related => exact .fault related.2

theorem evalProgram_keeps (keep : host.Keeps ok ended) (program : Program) :
    Run.Keeps ok ended (evalProgram host program) :=
  (evalProgram_agrees keep.agrees program).keeps

end

end Switchboard.Eval
