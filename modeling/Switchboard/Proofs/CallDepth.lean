import Switchboard.Proofs.Endings

namespace Switchboard.Dispatcher
open Eval

-- Running, in which a call runs again, so many times over; what is below that is left to `beyond`.
def unrolled (beyond : Callee) : Nat → Callee
  | 0 => beyond
  | n + 1 => fun path d => settle (execute (host (some (unrolled beyond n))) path d)

-- Nothing is left to it if there are more turns than levels: a call takes one of both, and without
-- a level left it is refused.
theorem unrolled_run (beyond : Callee) (n : Nat) : ∀ path (d : Dispatcher), d.maxDepth ≤ Context.maxDepth →
    d.levels < n → unrolled beyond n path d = run path d := by
  induction n with
  | zero => exact fun _ _ _ few => absurd few (Nat.not_lt_zero _)
  | succ n ih =>
    intro path d fits few
    rw [run_eq path d fits]
    show settle (execute (host (some (unrolled beyond n))) path d) = _
    rw [execute_same path fits]
    intro mode args s limit depth
    rw [callOperator_some, callOperator_some]
    cases starts : started mode args s with
    | error e => rfl
    | ok call =>
      obtain ⟨callee, fields⟩ := call
      have room := started_room starts
      have fits' : s.maxDepth ≤ Context.maxDepth := limit ▸ fits
      have fewer : (entered mode fields s).levels < n := by
        rw [entered_levels mode fields (Nat.lt_of_lt_of_le room fits')]
        unfold levels at few ⊢
        omega
      dsimp only
      rw [callBy_parts, callBy_parts, ih callee _ (by rwa [entered_limit]) fewer]

-- the run at the end of so many calls, each made by the program that the one before it started
inductive Activation (path : FunctionPath) (d : Dispatcher) : Nat → FunctionPath → Dispatcher → Prop where
  | start : Activation path d 0 path d
  | call {calls caller s i mode callee fields} : Activation path d calls caller s →
    Makes caller s i mode callee fields → Activation path d (calls + 1) callee (entered mode fields i.before)

-- the states of a run apart from those of the runs it calls, and whether its program is being evaluated
inductive Stands (path : FunctionPath) (d : Dispatcher) : Bool → Dispatcher → Prop where
  | begun : Stands path d false d
  | opened {program inside} : opening path d = some (program, inside) → Stands path d true inside
  | before {event} : event ∈ events path d → Stands path d true event.before
  | returned {i mode callee fields} : Makes path d i mode callee fields →
    Stands path d true (i.before.call mode callee fields).2
  | after {i} : .invoked i ∈ events path d → Stands path d true i.after
  | evaluated {program inside} : opening path d = some (program, inside) →
    Stands path d true (evalProgram (host (some run)) program inside).2
  | ended : Stands path d false (run path d).2

structure Counted (d : Dispatcher) (calls : Nat) (running : Bool) (m : Dispatcher) : Prop where
  limit : m.maxDepth = d.maxDepth
  depth : m.context.depth = d.context.depth + calls
  bound : m.context.depth ≤ d.maxDepth
  frames : ∃ pushed, m.stack = pushed ++ d.stack ∧ pushed.length = calls + running.toNat

section
variable {path caller : FunctionPath} {d s m : Dispatcher} {calls : Nat} {running : Bool}

theorem Counted.kept {m' : Dispatcher} (counted : Counted d calls running m) (kept : Kept m m') :
    Counted d calls running m' :=
  ⟨kept.limit.trans counted.limit, kept.depth.trans counted.depth, kept.depth.symm ▸ counted.bound,
    kept.stack.symm ▸ counted.frames⟩

theorem opening_counted (counted : Counted d calls false s) {program : Source.Program} {inside : Dispatcher}
    (opened : opening caller s = some (program, inside)) : Counted d calls true inside := by
  obtain ⟨_, _, context, limit, _, frame, inner⟩ := opening_kept opened
  obtain ⟨pushed, stack, length⟩ := counted.frames
  refine ⟨limit.trans counted.limit, context.symm ▸ counted.depth, context.symm ▸ counted.bound,
    frame :: pushed, ?_, ?_⟩
  · rw [inner, stack, List.cons_append]
  · rw [List.length_cons, length]
    rfl

theorem event_counted (fits : d.maxDepth ≤ Context.maxDepth) (counted : Counted d calls false s)
    {event : Event Dispatcher} (happens : event ∈ events caller s) : Counted d calls true event.before := by
  obtain ⟨program, inside, opened, kept⟩ := event_kept (counted.limit.symm ▸ fits) happens
  exact (opening_counted counted opened).kept kept

theorem entered_counted (fits : d.maxDepth ≤ Context.maxDepth) (counted : Counted d calls true m)
    {mode : CallMode} {args : List Json} {callee : FunctionPath} {fields : Fields}
    (starts : started mode args m = .ok (callee, fields)) :
    Counted d (calls + 1) false (entered mode fields m) := by
  have room := started_room starts
  have limit := counted.limit
  have depth := counted.depth
  have up := entered_depth mode fields (Nat.lt_of_lt_of_le room (limit ▸ fits))
  refine ⟨(entered_limit ..).trans limit, by omega, by omega, ?_⟩
  rw [entered_stack]
  exact counted.frames

theorem Activation.counted (activation : Activation path d calls caller s) (fits : d.maxDepth ≤ Context.maxDepth)
    (start : d.context.depth ≤ d.maxDepth) : Counted d calls false s := by
  induction activation with
  | start => exact ⟨rfl, rfl, start, [], rfl, rfl⟩
  | call _ makes ih => exact entered_counted fits (event_counted fits ih makes.happens) makes.starts

theorem Stands.counted (stands : Stands caller s running m) (fits : d.maxDepth ≤ Context.maxDepth)
    (counted : Counted d calls false s) : Counted d calls running m := by
  have fits' : s.maxDepth ≤ Context.maxDepth := counted.limit.symm ▸ fits
  cases stands with
  | begun => exact counted
  | opened found => exact opening_counted counted found
  | before happens => exact event_counted fits counted happens
  | @returned i mode callee fields makes =>
    have before := event_counted fits counted makes.happens
    exact before.kept (call_kept (before.limit.symm ▸ fits) (makes.room fits') mode callee fields)
  | @after i happens =>
    have before := event_counted fits counted happens
    have leaves := (host_keeps (only_callee run_orderly) (before.limit.symm ▸ fits)).invoke i.operator i.args
      i.before (.refl i.before)
    rw [event_invoked happens] at leaves
    exact before.kept leaves.state
  | @evaluated program inside found =>
    have inner := opening_counted counted found
    exact inner.kept (evalProgram_kept (only_callee run_orderly) program inside (inner.limit.symm ▸ fits))
  | ended => exact counted.kept (run_orderly caller s fits')

end

-- A call counts up by one and down by one, at neither end stopped by a bound of the counter.
structure Undone (d : Dispatcher) (mode : CallMode) (callee : FunctionPath) (fields : Fields) : Prop where
  up : d.context.enter.depth = d.context.depth + 1
  down : d.context.enter.leave = d.context
  entered : (entered mode fields d).context.depth = d.context.depth + 1
  ended : (run callee (Dispatcher.entered mode fields d)).2.context.depth = d.context.depth + 1
  left : (d.call mode callee fields).2.context.depth = d.context.depth

theorem call_undone {d : Dispatcher} (fits : d.maxDepth ≤ Context.maxDepth)
    (room : d.context.depth < Context.maxDepth) (mode : CallMode) (callee : FunctionPath) (fields : Fields) :
    Undone d mode callee fields := by
  have up := entered_depth mode fields room
  have ended := (run_orderly callee (entered mode fields d) (by rwa [entered_limit])).depth
  exact ⟨Nat.min_eq_left room, leave_enter room, up, ended.trans up, (call_kept fits room mode callee fields).depth⟩

-- what comes of a call at the limit, made by the program of `caller` in `s` after the run of `path` began
structure Refused (path : FunctionPath) (d : Dispatcher) (caller : FunctionPath) (s : Dispatcher)
    (i : Invocation Dispatcher) (mode : CallMode) : Prop where
  unmade : ∀ callee fields, ¬ Makes caller s i mode callee fields
  unchanged : i.after = i.before
  fails : ∃ e, i.result = .error e ∧ (run caller s).1 = .failed (.structural e.message) ∧
    (run path d).1 = .failed (.structural e.message)
  names : ∀ name rest fields, i.args = name :: rest → namedArgs mode rest = .ok fields →
    i.result = .error (i.before.depthExceeded name.text)

theorem started_structural {mode : CallMode} {args : List Json} {d : Dispatcher} {e : Fault}
    (refused : started mode args d = .error e) : failureOf e = .structural e.message := by
  cases started_refused refused <;> rfl

theorem Activation.failed {path caller : FunctionPath} {d s : Dispatcher} {calls : Nat} {failure : Failure}
    (activation : Activation path d calls caller s) (fits : d.maxDepth ≤ Context.maxDepth)
    (start : d.context.depth ≤ d.maxDepth) (fails : (run caller s).1 = .failed failure) :
    (run path d).1 = .failed failure := by
  induction activation with
  | start => exact fails
  | @call calls caller s i mode callee fields activation makes ih =>
    have fits' : s.maxDepth ≤ Context.maxDepth := (activation.counted fits start).limit.symm ▸ fits
    rw [← (call_eq mode callee fields i.before).1] at fails
    have relayed : relay s (i.before.call mode callee fields).2.output (i.before.call mode callee fields).1 =
        some (.failed failure, (i.before.call mode callee fields).2.output) := by
      rw [fails]
      rfl
    exact ih (makes.relayed fits' relayed).1

theorem call_refused {path caller : FunctionPath} {d s : Dispatcher} {calls : Nat}
    {i : Invocation Dispatcher} {mode : CallMode} (fits : d.maxDepth ≤ Context.maxDepth)
    (start : d.context.depth ≤ d.maxDepth) (activation : Activation path d calls caller s)
    (happens : .invoked i ∈ events caller s) (operator : i.operator = mode.operator)
    (full : i.before.context.depth = d.maxDepth) : Refused path d caller s i mode := by
  have counted := activation.counted fits start
  have limit : i.before.maxDepth = d.maxDepth := (event_counted fits counted happens).limit
  have closed : ¬ i.before.context.depth < i.before.maxDepth := by omega
  have unmade (callee : FunctionPath) (fields : Fields) : ¬ Makes caller s i mode callee fields :=
    fun makes => closed (started_room makes.starts)
  have invoked := event_invoked happens
  rw [operator, host_invoke] at invoked
  have called : callOperator (some run) mode i.args i.before = (i.result, i.after) := by
    cases mode <;> exact invoked
  rw [callOperator_some] at called
  cases starts : started mode i.args i.before with
  | ok call => exact absurd (started_room starts) closed
  | error e =>
    rw [starts] at called
    obtain ⟨result, after⟩ := Prod.mk.inj called
    have fails : (run caller s).1 = .failed (.structural e.message) := by
      rw [run_failed (counted.limit.symm ▸ fits) happens result.symm, settle_plain (started_fault starts),
        started_structural starts]
    refine ⟨unmade, after.symm, ⟨e, result.symm, fails, activation.failed fits start fails⟩, ?_⟩
    intro name rest fields args named
    have exceeded : started mode i.args i.before = .error (i.before.depthExceeded name.text) := by
      rw [args]
      simp only [started, named, if_pos (Nat.le_of_not_lt closed)]
    cases starts.symm.trans exceeded
    exact result.symm

structure Bounded (d : Dispatcher) (path : FunctionPath) : Prop where
  recurs : d.process path false = settle (execute (host (some run)) path d)
  terminates : ∀ beyond n, d.maxDepth - d.context.depth < n → unrolled beyond n path d = d.process path false
  counted : ∀ calls caller s running m, Activation path d calls caller s → Stands caller s running m →
    Counted d calls running m
  undone : ∀ calls caller s i mode callee fields, Activation path d calls caller s →
    Makes caller s i mode callee fields → Undone i.before mode callee fields
  refused : ∀ calls caller s i mode, Activation path d calls caller s → .invoked i ∈ events caller s →
    i.operator = mode.operator → i.before.context.depth = d.maxDepth → Refused path d caller s i mode

theorem depth_bounded (d : Dispatcher) (fits : d.maxDepth ≤ Context.maxDepth)
    (start : d.context.depth ≤ d.maxDepth) (path : FunctionPath) : Bounded d path := by
  refine ⟨run_eq path d fits, fun beyond n few => unrolled_run beyond n path d fits few, ?_, ?_, ?_⟩
  · intro calls caller s running m activation stands
    exact stands.counted fits (activation.counted fits start)
  · intro calls caller s i mode callee fields activation makes
    have counted := activation.counted fits start
    have before := event_counted fits counted makes.happens
    exact call_undone (before.limit.symm ▸ fits) (makes.room (counted.limit.symm ▸ fits)) mode callee fields
  · intro calls caller s i mode activation happens operator full
    exact call_refused fits start activation happens operator full

-- a program that calls, where no call is allowed
theorem depth_bounded_full :
    let d : Dispatcher := { calling with maxDepth := 0 }
    d.maxDepth ≤ Context.maxDepth ∧ d.context.depth ≤ d.maxDepth ∧ Bounded d ⟨"a"⟩ ∧
      (d.process ⟨"a"⟩ false).1 = .failed (.structural "Maximum call depth of 0 exceeded calling \"\"") := by
  intro d
  have bounded := depth_bounded d (Nat.zero_le _) (Nat.le_refl 0) ⟨"a"⟩
  refine ⟨Nat.zero_le _, Nat.le_refl 0, bounded, ?_⟩
  obtain ⟨inside, opened⟩ := calling_opening (d := d) rfl rfl
  obtain ⟨_, _, context, limit, _, _⟩ := opening_kept opened
  let result := (host (some run)).invoke "icall" [.string ""] inside
  let i : Invocation Dispatcher := ⟨"icall", [.string ""], inside, result.1, result.2⟩
  have happens : .invoked i ∈ events ⟨"a"⟩ d := by
    unfold events
    rw [opened]
    dsimp only
    rw [calling_events]
    exact List.mem_singleton_self _
  have full : i.before.context.depth = 0 := congrArg Context.depth context
  have refused := bounded.refused 0 ⟨"a"⟩ d i .isolated .start happens rfl full
  obtain ⟨e, fails, _, outcome⟩ := refused.fails
  have names := refused.names (.string "") [] [] rfl rfl
  cases fails.symm.trans names
  have message : "Maximum call depth of " ++ toString 0 ++ " exceeded calling \"" ++ "" ++ "\"" =
      "Maximum call depth of 0 exceeded calling \"\"" := by decide
  rw [process, if_neg Bool.false_ne_true, outcome, depthExceeded, limit, ← message]
  rfl

end Switchboard.Dispatcher
