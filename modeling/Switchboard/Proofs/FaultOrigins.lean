import Switchboard.Proofs.EvaluationOrder
import Switchboard.Proofs.Histories

namespace Switchboard.Eval
open Source

def Form.admits (form : Form) (given : Nat) : Prop :=
  match form with
  | .set => given = 2
  | .get => given = 1
  | .branch => given = 2 ∨ given = 3
  | .block | .all | .any => True

def Form.expected : Form → Nat
  | .get => 1
  | _ => 2

-- A call fails by itself, not through one of its parts: the first state is that in which it is evaluated, the
-- second that in which the fault arises.
inductive Fails (host : Host σ) : Expr → σ → Fault → σ → Prop where
  | builtin {operator args s values t b e} : Form.ofName? operator = none →
    evalAll host args s = (.ok values, t) → Builtin.ofName? operator = some b → b.apply values = .error e →
    Fails host (.call operator args) s e t
  | answered {operator args s values t e u} : Form.ofName? operator = none →
    evalAll host args s = (.ok values, t) → Builtin.ofName? operator = none →
    host.call operator values t = (some (.error e), u) → Fails host (.call operator args) s e u
  | unknown {operator args s values t u} : Form.ofName? operator = none →
    evalAll host args s = (.ok values, t) → Builtin.ofName? operator = none →
    host.call operator values t = (none, u) → Fails host (.call operator args) s (.undefined operator) u
  | misused {operator args s form} : Form.ofName? operator = some form → ¬ form.admits args.length →
    Fails host (.call operator args) s (.argumentCount operator form.expected args.length) s
  | nameless {operator target value s t} : Form.ofName? operator = some .set →
    pathOf target (evalExpr host target) s = (.ok "", t) →
    Fails host (.call operator [target, value]) s (.argumentTypes operator ["string"]) t

-- a fault that arises in the course of a program, and the state in which it does
inductive Raised (host : Host σ) : Program → σ → Fault → σ → Prop where
  | inside {before expr after s value t inner u e v} : evalProgram host before s = (.ok value, t) →
    Reaches host expr t inner u → Fails host inner u e v → Raised host (before ++ .template expr :: after) s e v

section
variable {s t v : σ} {e : Fault}

theorem Run.bind_value {m : Run σ α} {f : α → Run σ β} {a : α} (value : m s = (.ok a, t)) :
    (m >>= f) s = f a t := by
  show Run.bind m f s = _
  unfold Run.bind
  rw [value]

theorem Run.bind_fault {m : Run σ α} {f : α → Run σ β} (fault : m s = (.error e, t)) :
    (m >>= f) s = (.error e, t) := by
  show Run.bind m f s = _
  unfold Run.bind
  rw [fault]

theorem Run.bind_failed {m : Run σ α} {f : α → Run σ β} :
    (m >>= f) s = (.error e, v) ↔ m s = (.error e, v) ∨ ∃ a t, m s = (.ok a, t) ∧ f a t = (.error e, v) := by
  cases ran : m s with
  | mk r t =>
    cases r with
    | ok a =>
      rw [bind_value ran]
      constructor
      · intro fails
        exact .inr ⟨a, t, rfl, fails⟩
      · rintro (same | ⟨_, _, same, fails⟩)
        · cases same
        · cases same
          exact fails
    | error e' =>
      rw [bind_fault ran]
      constructor
      · intro same
        cases same
        exact .inl rfl
      · rintro (same | ⟨_, _, same, _⟩)
        · cases same
          rfl
        · cases same

theorem Run.bind_failed_first {m : Run σ α} {f : α → Run σ β} (never : ∀ a t, f a t ≠ (.error e, v)) :
    (m >>= f) s = (.error e, v) ↔ m s = (.error e, v) := by
  rw [bind_failed]
  refine or_iff_left ?_
  rintro ⟨a, t, _, fails⟩
  exact never a t fails

theorem Run.bind_ended {m : Run σ α} {f : α → Run σ β} {b : β} (ends : (m >>= f) s = (.ok b, v)) :
    ∃ a t, m s = (.ok a, t) ∧ f a t = (.ok b, v) := by
  cases ran : m s with
  | mk r t =>
    cases r with
    | ok a =>
      rw [bind_value ran] at ends
      exact ⟨a, t, rfl, ends⟩
    | error e' =>
      rw [bind_fault ran] at ends
      cases ends

theorem Run.pure_not_failed {a : α} : (pure a : Run σ α) s ≠ (.error e, v) := by
  intro fails
  cases fails

theorem Host.lookup_not_failed (host : Host σ) {path : String} : host.lookup path s ≠ (.error e, v) := by
  intro fails
  cases fails

theorem Host.assign_not_failed (host : Host σ) {path : String} {value : Json} :
    host.assign path value s ≠ (.error e, v) := by
  intro fails
  cases fails

-- Expressions are evaluated in a row: each part in its turn, as long as what has come of it so far lets it go on.
structure Row (run : β → List α → Run σ γ) (one : α → Run σ δ) (next : β → α → δ → β) (done : β → γ)
    (goes : γ → Prop) : Prop where
  nil : ∀ b, run b [] = pure (done b)
  faults : ∀ {b a rest s e t}, one a s = (.error e, t) → run b (a :: rest) s = (.error e, t)
  onward : ∀ {b a rest s x t}, one a s = (.ok x, t) → goes (done (next b a x)) →
    run b (a :: rest) s = run (next b a x) rest t
  stops : ∀ {b a rest s x t}, one a s = (.ok x, t) → ¬ goes (done (next b a x)) →
    run b (a :: rest) s = (.ok (done (next b a x)), t)

theorem Row.failed {run : β → List α → Run σ γ} {one : α → Run σ δ} {next : β → α → δ → β} {done : β → γ}
    {goes : γ → Prop} (row : Row run one next done goes) {b : β} (on : goes (done b)) (parts : List α) :
    run b parts s = (.error e, v) ↔ ∃ before a after b' t, parts = before ++ a :: after ∧
      run b before s = (.ok (done b'), t) ∧ goes (done b') ∧ one a t = (.error e, v) := by
  induction parts generalizing b s with
  | nil =>
    rw [row.nil]
    exact iff_of_false Run.pure_not_failed (by simp)
  | cons first rest ih =>
    constructor
    · intro fails
      cases evaluates : one first s with
      | mk r t =>
        cases r with
        | error e' =>
          rw [row.faults evaluates] at fails
          cases fails
          exact ⟨[], first, rest, b, s, rfl, by rw [row.nil]; rfl, on, evaluates⟩
        | ok x =>
          by_cases on' : goes (done (next b first x))
          · rw [row.onward evaluates on'] at fails
            obtain ⟨before, a, after, b', u, rfl, left, held, fails⟩ := (ih on').mp fails
            exact ⟨first :: before, a, after, b', u, rfl, (row.onward evaluates on').trans left, held, fails⟩
          · rw [row.stops evaluates on'] at fails
            cases fails
    · rintro ⟨before, a, after, b', t, same, left, held, fails⟩
      cases before with
      | nil =>
        obtain ⟨rfl, rfl⟩ := List.cons.inj same
        rw [row.nil] at left
        have begins : s = t := congrArg Prod.snd left
        exact row.faults (begins ▸ fails)
      | cons _ before =>
        rw [List.cons_append] at same
        obtain ⟨rfl, rfl⟩ := List.cons.inj same
        cases evaluates : one first s with
        | mk r u =>
          cases r with
          | error e' =>
            rw [row.faults evaluates] at left
            cases left
          | ok x =>
            by_cases on' : goes (done (next b first x))
            · rw [row.onward evaluates on'] at left ⊢
              exact (ih on').mpr ⟨before, a, after, b', t, rfl, left, held, fails⟩
            · rw [row.stops evaluates on'] at left
              have same : done (next b first x) = done b' := Except.ok.inj (congrArg Prod.fst left)
              exact absurd (same ▸ held) on'

variable (host : Host σ)

theorem block_row : Row (evalBlock host) (evalExpr host) (fun _ _ value => value) id fun _ => True where
  nil _ := rfl
  faults fault := Run.bind_fault fault
  onward value _ := Run.bind_value value
  stops _ off := absurd trivial off

theorem nodes_row : Row (evalNodes host) (evalNode host) (fun _ _ value => value) id fun _ => True where
  nil _ := rfl
  faults fault := Run.bind_fault fault
  onward value _ := Run.bind_value value
  stops _ off := absurd trivial off

theorem entries_row : Row (evalEntries host) (fun entry => evalExpr host entry.2)
    (fun done entry value => Entries.put entry.1 value done) Json.object fun _ => True where
  nil _ := rfl
  faults fault := Run.bind_fault fault
  onward value _ := Run.bind_value value
  stops _ off := absurd trivial off

theorem while_row (wanted : Bool) :
    Row (evalWhile host wanted) (evalExpr host) (fun _ _ value => value) id fun value => value.truthy = wanted where
  nil _ := rfl
  faults fault := Run.bind_fault fault
  onward value on := by
    rw [evalWhile, Run.bind_value value]
    exact congrFun (if_pos on) _
  stops value off := by
    rw [evalWhile, Run.bind_value value]
    exact congrFun (if_neg off) _

theorem entries_value {entries : List (String × Expr)} {done : Fields} {object : Json}
    (left : evalEntries host done entries s = (.ok object, t)) : ∃ fields, object = .object fields := by
  induction entries generalizing done s with
  | nil =>
    rw [evalEntries] at left
    cases left
    exact ⟨done, rfl⟩
  | cons entry rest ih =>
    rw [evalEntries] at left
    obtain ⟨value, u, _, left⟩ := Run.bind_ended left
    exact ih left

-- The values of the parts before are kept, and so this is no such row.
theorem evalAll_failed (items : List Expr) : evalAll host items s = (.error e, v) ↔
    ∃ before item after values t, items = before ++ item :: after ∧
      evalAll host before s = (.ok values, t) ∧ evalExpr host item t = (.error e, v) := by
  induction items generalizing s with
  | nil =>
    rw [evalAll]
    exact iff_of_false Run.pure_not_failed (by simp)
  | cons first rest ih =>
    rw [evalAll]
    constructor
    · intro fails
      rcases Run.bind_failed.mp fails with fails | ⟨value, t, evaluates, later⟩
      · exact ⟨[], first, rest, [], s, rfl, rfl, fails⟩
      · have fails := (Run.bind_failed_first fun _ _ => Run.pure_not_failed).mp later
        obtain ⟨before, item, after, values, u, rfl, left, fails⟩ := ih.mp fails
        refine ⟨first :: before, item, after, value :: values, u, rfl, ?_, fails⟩
        rw [evalAll, Run.bind_value evaluates, Run.bind_value left]
        rfl
    · rintro ⟨before, item, after, values, t, same, left, fails⟩
      cases before with
      | nil =>
        obtain ⟨rfl, rfl⟩ := List.cons.inj same
        cases left
        exact Run.bind_fault fails
      | cons _ before =>
        rw [List.cons_append] at same
        obtain ⟨rfl, rfl⟩ := List.cons.inj same
        rw [evalAll] at left
        obtain ⟨value, u, evaluates, left⟩ := Run.bind_ended left
        obtain ⟨others, w, left, ended⟩ := Run.bind_ended left
        cases ended
        rw [Run.bind_value evaluates]
        exact Run.bind_fault (ih.mpr ⟨before, item, after, others, _, rfl, left, fails⟩)

theorem pathOf_failed (target : Expr) (value : Run σ Json) : pathOf target value s = (.error e, v) ↔
    (∀ path, target ≠ .variable path) ∧ value s = (.error e, v) := by
  have evaluated : (do let value ← value; pure value.text : Run σ String) s = (.error e, v) ↔
      value s = (.error e, v) :=
    Run.bind_failed_first fun _ _ => Run.pure_not_failed
  cases target with
  | «variable» path => exact iff_of_false Run.pure_not_failed fun other => other.1 path rfl
  | _ => exact evaluated.trans (by simp)

theorem branch_failed {operator : String} {cond yes : Expr} {rest : List Expr}
    (form : Form.ofName? operator = some .branch) (short : rest.length ≤ 1) :
    evalExpr host (.call operator (cond :: yes :: rest)) s = (.error e, v) ↔
      evalExpr host cond s = (.error e, v) ∨ ∃ test t, evalExpr host cond s = (.ok test, t) ∧
        (test.truthy = true ∧ evalExpr host yes t = (.error e, v) ∨
          test.truthy = false ∧ ∃ no, rest = [no] ∧ evalExpr host no t = (.error e, v)) := by
  rcases rest with _ | ⟨no, _ | ⟨_, _⟩⟩
  · simp only [evalExpr, form, evalBranch]
    rw [Run.bind_failed]
    refine or_congr_right (exists_congr fun test => exists_congr fun t => and_congr_right fun _ => ?_)
    cases test.truthy with
    | true => simp
    | false => simpa using Run.pure_not_failed
  · simp only [evalExpr, form, evalBranch]
    rw [Run.bind_failed]
    refine or_congr_right (exists_congr fun test => exists_congr fun t => and_congr_right fun _ => ?_)
    cases test.truthy <;> simp
  · simp at short

end

section
variable {host : Host σ} {s t v : σ} {e : Fault}

-- What a part fails with, the whole fails with, and there it stops.
theorem Part.failed {expr part : Expr} (parts : Part host expr s part t)
    (fails : evalExpr host part t = (.error e, v)) : evalExpr host expr s = (.error e, v) := by
  cases parts with
  | item left =>
    rw [evalExpr]
    exact Run.bind_fault ((evalAll_failed host _).mpr ⟨_, _, _, _, _, rfl, left, fails⟩)
  | @entry before key _ after _ object _ left =>
    obtain ⟨done, same⟩ := entries_value host left
    subst same
    rw [evalExpr]
    exact ((entries_row host).failed trivial _).mpr ⟨before, (key, part), after, done, t, rfl, left, trivial, fails⟩
  | argument plain left =>
    simp only [evalExpr, plain]
    exact Run.bind_fault ((evalAll_failed host _).mpr ⟨_, _, _, _, _, rfl, left, fails⟩)
  | step form left =>
    simp only [evalExpr, form]
    exact ((block_row host).failed trivial _).mpr ⟨_, _, _, _, _, rfl, left, trivial, fails⟩
  | @test _ wanted before _ after _ last _ form left on =>
    have fails := ((while_row host wanted).failed (b := .bool wanted) (by cases wanted <;> rfl)
      (before ++ part :: after)).mpr ⟨before, part, after, last, t, rfl, left, on, fails⟩
    cases wanted with
    | true => simpa only [evalExpr, form, if_true] using fails
    | false => simpa only [evalExpr, form, Bool.false_eq_true, if_false] using fails
  | condition form short =>
    exact (branch_failed host form short).mpr (.inl fails)
  | yes form short tested on =>
    exact (branch_failed host form short).mpr (.inr ⟨_, _, tested, .inl ⟨on, fails⟩⟩)
  | no form tested off =>
    exact (branch_failed host form (by simp)).mpr (.inr ⟨_, _, tested, .inr ⟨off, _, rfl, fails⟩⟩)
  | read form other =>
    simp only [evalExpr, form, evalGet]
    exact Run.bind_fault ((pathOf_failed _ _).mpr ⟨other, fails⟩)
  | target form other =>
    simp only [evalExpr, form, evalSet]
    exact Run.bind_fault ((pathOf_failed _ _).mpr ⟨other, fails⟩)
  | value form left full =>
    simp only [evalExpr, form, evalSet]
    rw [Run.bind_value left, if_neg full]
    exact Run.bind_fault fails

theorem Reaches.failed {expr inner : Expr} (reaches : Reaches host expr s inner t)
    (fails : evalExpr host inner t = (.error e, v)) : evalExpr host expr s = (.error e, v) := by
  induction reaches with
  | here => exact fails
  | part parts _ ih => exact parts.failed (ih fails)

theorem misuse {operator : String} {form : Form} {args : List Expr} (named : Form.ofName? operator = some form)
    (few : ¬ form.admits args.length) : evalExpr host (.call operator args) s =
      (.error (.argumentCount operator form.expected args.length), s) := by
  rw [evalExpr, named]
  cases form with
  | set =>
    rcases args with _ | ⟨_, _ | ⟨_, _ | ⟨_, _⟩⟩⟩ <;> first | rfl | exact absurd rfl few
  | get =>
    rcases args with _ | ⟨_, _ | ⟨_, _⟩⟩ <;> first | rfl | exact absurd rfl few
  | branch =>
    rcases args with _ | ⟨_, _ | ⟨_, _ | ⟨_, _ | ⟨_, _⟩⟩⟩⟩ <;>
      first | rfl | exact absurd (.inl rfl) few | exact absurd (.inr rfl) few
  | block | all | any => exact absurd trivial few

theorem Fails.ended {expr : Expr} (fails : Fails host expr s e v) : evalExpr host expr s = (.error e, v) := by
  cases fails with
  | builtin plain left named fails =>
    simp only [evalExpr, plain]
    rw [Run.bind_value left, Host.apply, named]
    exact congrArg (·, v) fails
  | answered plain left unnamed fails =>
    simp only [evalExpr, plain]
    rw [Run.bind_value left, Host.apply, unnamed]
    simp only [Host.invoke, fails]
  | unknown plain left unnamed fails =>
    simp only [evalExpr, plain]
    rw [Run.bind_value left, Host.apply, unnamed]
    simp only [Host.invoke, fails]
  | misused form few => exact misuse form few
  | nameless form left =>
    simp only [evalExpr, form, evalSet]
    rw [Run.bind_value left, if_pos rfl]
    rfl

theorem apply_failed {operator : String} {args : List Expr} {values : List Json} (plain : Form.ofName? operator = none)
    (left : evalAll host args s = (.ok values, t)) (fails : host.apply operator values t = (.error e, v)) :
    Fails host (.call operator args) s e v := by
  rw [Host.apply] at fails
  cases named : Builtin.ofName? operator with
  | some b =>
    rw [named] at fails
    obtain ⟨failed, rfl⟩ := Prod.mk.inj (show (b.apply values, t) = (.error e, v) from fails)
    exact .builtin plain left named failed
  | none =>
    rw [named] at fails
    simp only [Host.invoke] at fails
    cases answer : host.call operator values t with
    | mk r u =>
      rw [answer] at fails
      cases r with
      | none =>
        obtain ⟨fails, rfl⟩ := Prod.mk.inj fails
        cases fails
        exact .unknown plain left named answer
      | some r =>
        obtain ⟨rfl, rfl⟩ := Prod.mk.inj fails
        exact .answered plain left named answer

theorem set_failed {operator : String} {target value : Expr} (form : Form.ofName? operator = some .set)
    (fails : evalSet host operator [target, value] s = (.error e, v)) :
    Fails host (.call operator [target, value]) s e v ∨
      ∃ part t, Part host (.call operator [target, value]) s part t ∧ evalExpr host part t = (.error e, v) := by
  rw [evalSet] at fails
  rcases Run.bind_failed.mp fails with fails | ⟨path, t, left, later⟩
  · obtain ⟨other, fails⟩ := (pathOf_failed target _).mp fails
    exact .inr ⟨target, s, .target form other, fails⟩
  · by_cases empty : path = ""
    · subst empty
      rw [if_pos rfl] at later
      cases later
      exact .inl (.nameless form left)
    · rw [if_neg empty] at later
      have fails := (Run.bind_failed_first fun _ _ => host.assign_not_failed).mp later
      exact .inr ⟨value, t, .value form left empty, fails⟩

theorem call_failed {operator : String} {args : List Expr}
    (fails : evalExpr host (.call operator args) s = (.error e, v)) :
    Fails host (.call operator args) s e v ∨
      ∃ part t, Part host (.call operator args) s part t ∧ evalExpr host part t = (.error e, v) := by
  -- a wrong number of arguments is noticed before any of them is evaluated
  have misused {form : Form} (named : Form.ofName? operator = some form)
      (few : ¬ form.admits args.length) : Fails host (.call operator args) s e v := by
    rw [misuse named few] at fails
    cases fails
    exact .misused named few
  cases named : Form.ofName? operator with
  | none =>
    simp only [evalExpr, named] at fails
    rcases Run.bind_failed.mp fails with fails | ⟨values, t, left, fails⟩
    · obtain ⟨before, item, after, values, t, rfl, left, fails⟩ := (evalAll_failed host args).mp fails
      exact .inr ⟨item, t, .argument named left, fails⟩
    · exact .inl (apply_failed named left fails)
  | some form =>
    cases form with
    | set =>
      rcases args with _ | ⟨target, _ | ⟨value, _ | ⟨_, _⟩⟩⟩
      · exact .inl (misused named (by simp [Form.admits]))
      · exact .inl (misused named (by simp [Form.admits]))
      · simp only [evalExpr, named] at fails
        exact set_failed named fails
      · exact .inl (misused named (by simp [Form.admits]))
    | get =>
      by_cases single : args.length = 1
      · obtain ⟨target, rfl⟩ := List.length_eq_one_iff.mp single
        simp only [evalExpr, named, evalGet] at fails
        have fails := (Run.bind_failed_first fun _ _ => host.lookup_not_failed).mp fails
        obtain ⟨other, fails⟩ := (pathOf_failed target _).mp fails
        exact .inr ⟨target, s, .read named other, fails⟩
      · exact .inl (misused named single)
    | block =>
      simp only [evalExpr, named] at fails
      obtain ⟨before, arg, after, last, t, rfl, left, _, fails⟩ := ((block_row host).failed trivial args).mp fails
      exact .inr ⟨arg, t, .step named left, fails⟩
    | branch =>
      rcases args with _ | ⟨cond, _ | ⟨yes, rest⟩⟩
      · exact .inl (misused named (by simp [Form.admits]))
      · exact .inl (misused named (by simp [Form.admits]))
      · by_cases short : rest.length ≤ 1
        · rcases (branch_failed host named short).mp fails with
            fault | ⟨test, t, left, ⟨on, fault⟩ | ⟨off, no, rfl, fault⟩⟩
          · exact .inr ⟨cond, s, .condition named short, fault⟩
          · exact .inr ⟨yes, t, .yes named short left on, fault⟩
          · exact .inr ⟨no, t, .no named left off, fault⟩
        · refine .inl (misused named ?_)
          simp only [Form.admits, List.length_cons]
          omega
    | all =>
      simp only [evalExpr, named] at fails
      obtain ⟨before, arg, after, last, t, rfl, left, on, fails⟩ :=
        ((while_row host true).failed (b := .bool true) rfl args).mp fails
      have tested : Form.ofName? operator = some (if true then .all else .any) := named
      exact .inr ⟨arg, t, .test tested left on, fails⟩
    | any =>
      simp only [evalExpr, named] at fails
      obtain ⟨before, arg, after, last, t, rfl, left, on, fails⟩ :=
        ((while_row host false).failed (b := .bool false) rfl args).mp fails
      have tested : Form.ofName? operator = some (if false then .all else .any) := named
      exact .inr ⟨arg, t, .test tested left on, fails⟩

theorem evalExpr_failed {expr : Expr} (fails : evalExpr host expr s = (.error e, v)) :
    Fails host expr s e v ∨ ∃ part t, Part host expr s part t ∧ evalExpr host part t = (.error e, v) := by
  cases expr with
  | literal value => exact absurd fails Run.pure_not_failed
  | «variable» path => cases fails
  | array items =>
    rw [evalExpr] at fails
    have fails := (Run.bind_failed_first fun _ _ => Run.pure_not_failed).mp fails
    obtain ⟨before, item, after, values, t, rfl, left, fails⟩ := (evalAll_failed host items).mp fails
    exact .inr ⟨item, t, .item left, fails⟩
  | object entries =>
    rw [evalExpr] at fails
    obtain ⟨before, entry, after, done, t, rfl, left, _, fails⟩ :=
      ((entries_row host).failed trivial entries).mp fails
    exact .inr ⟨entry.2, t, .entry left, fails⟩
  | call operator args => exact call_failed fails

theorem Part.smaller {expr part : Expr} (parts : Part host expr s part t) : sizeOf part < sizeOf expr := by
  cases parts with
  | @item before _ after =>
    have present : part ∈ before ++ part :: after := by simp
    have := List.sizeOf_lt_of_mem present
    simp only [Expr.array.sizeOf_spec]
    omega
  | @entry before key _ after =>
    have present : (key, part) ∈ before ++ (key, part) :: after := by simp
    have := List.sizeOf_lt_of_mem present
    simp only [Expr.object.sizeOf_spec, Prod.mk.sizeOf_spec] at this ⊢
    omega
  | @argument _ before _ after | @step _ before _ after | @test _ _ before _ after =>
    have present : part ∈ before ++ part :: after := by simp
    have := List.sizeOf_lt_of_mem present
    simp only [Expr.call.sizeOf_spec]
    omega
  | condition | yes | no | read | target | value =>
    simp only [Expr.call.sizeOf_spec, List.cons.sizeOf_spec]
    omega

theorem evalExpr_raised {expr : Expr} {s : σ} : evalExpr host expr s = (.error e, v) ↔
    ∃ inner t, Reaches host expr s inner t ∧ Fails host inner t e v := by
  constructor
  · intro fails
    rcases evalExpr_failed fails with here | ⟨part, t, parts, fails⟩
    · exact ⟨expr, s, .here, here⟩
    · have := parts.smaller
      obtain ⟨inner, u, reaches, fails⟩ := evalExpr_raised.mp fails
      exact ⟨inner, u, .part parts reaches, fails⟩
  · rintro ⟨inner, t, reaches, fails⟩
    exact reaches.failed fails.ended
termination_by sizeOf expr

theorem evalProgram_raised {program : Program} :
    evalProgram host program s = (.error e, v) ↔ Raised host program s e v := by
  constructor
  · intro fails
    obtain ⟨before, node, after, value, t, rfl, left, _, fails⟩ :=
      ((nodes_row host).failed trivial program).mp fails
    cases node with
    | text content => exact absurd fails Run.pure_not_failed
    | template expr =>
      obtain ⟨inner, u, reaches, fails⟩ := evalExpr_raised.mp fails
      exact .inside left reaches fails
  · rintro ⟨left, reaches, fails⟩
    exact ((nodes_row host).failed trivial _).mpr
      ⟨_, _, _, _, _, rfl, left, trivial, evalExpr_raised.mpr ⟨_, _, reaches, fails⟩⟩

end

-- A program fails exactly with the faults that arise in it, each as it is and in the state in which it arose. By
-- then the host has done all that it does, and an invocation that fails is such a fault and the last thing done.
theorem faults_raised (host : Host σ) (program : Program) (s : σ) :
    (∀ e v, evalProgram host program s = (.error e, v) ↔ Raised host program s e v) ∧
      (∀ e v, Raised host program s e v →
        Raised host.recorded program (s, []) e (v, (history host program s).reverse)) ∧
      ∀ i e, .invoked i ∈ history host program s → i.result = .error e →
        Raised host program s e i.after ∧ (history host program s).getLast? = some (.invoked i) := by
  refine ⟨fun e v => evalProgram_raised, fun e v raised => ?_, fun i e present failed => ?_⟩
  · have fails := evalProgram_raised.mpr raised
    have same := evalProgram_recorded host program s []
    refine evalProgram_raised.mp ?_
    rw [fails] at same
    rw [history, List.reverse_reverse]
    generalize evalProgram host.recorded program (s, []) = recorded at same ⊢
    obtain ⟨result, after, journal⟩ := recorded
    cases same
    rfl
  · obtain ⟨fails, last⟩ := history_failed present failed
    exact ⟨evalProgram_raised.mp fails, last⟩

theorem faults_raised_in_assignment :
    let program : Program :=
      [.template (.call "set" [.variable "x", .call "missing" [.literal (.bool true)]]), .text "b"]
    let missed : Invocation Context :=
      ⟨"missing", [.bool true], {}, .error (.undefined "missing"), {}⟩
    history bareHost program {} = [.invoked missed] ∧
      evalProgram bareHost program {} = (.error (.undefined "missing"), {}) ∧
      Raised bareHost program {} (.undefined "missing") {} ∧
      Raised bareHost.recorded program ({}, []) (.undefined "missing") ({}, [.invoked missed]) := by
  intro program missed
  have written : history bareHost program {} = [.invoked missed] := by rfl
  obtain ⟨raised, recorded, invoked⟩ := faults_raised bareHost program {}
  obtain ⟨here, _⟩ := invoked missed _ (by rw [written]; exact List.mem_singleton_self _) rfl
  have journal := recorded _ _ here
  rw [written] at journal
  exact ⟨written, (raised _ _).mpr here, here, journal⟩

end Switchboard.Eval
