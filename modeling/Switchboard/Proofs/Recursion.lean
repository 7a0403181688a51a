import Switchboard.Proofs.Bookkeeping

namespace Switchboard.Dispatcher
open Eval

-- the program that a path names, and the state in which it is evaluated
def opening (path : FunctionPath) (d : Dispatcher) : Option (Source.Program × Dispatcher) :=
  match CallStack.resolve d.stack path with
  | .error _ => none
  | .ok target =>
    if target.isValid then
      match d.cache.resolve target with
      | (.ok program, cache) => some (program, { d with cache, stack := CallFrame.of target :: d.stack })
      | (.error _, _) => none
    else none

def closing : Except Fault Json × Dispatcher → Except Fault Json × Dispatcher
  | (.error e, d) => (.error e, { d with stack := d.stack.tail })
  | (.ok value, d) =>
    if value.isEmpty then (.ok value, { d with stack := d.stack.tail })
    else ({ d with stack := d.stack.tail } : Dispatcher).reply value

theorem execute_opened {path : FunctionPath} {d inside : Dispatcher} {program : Source.Program}
    (opened : opening path d = some (program, inside)) (host : Host Dispatcher) :
    execute host path d = closing (evalProgram host program inside) := by
  unfold opening at opened
  unfold execute
  cases resolved : CallStack.resolve d.stack path with
  | error e =>
    rw [resolved] at opened
    cases opened
  | ok target =>
    rw [resolved] at opened
    dsimp only at opened ⊢
    by_cases valid : target.isValid = true
    · rw [if_pos valid] at opened ⊢
      generalize d.cache.resolve target = compiled at opened ⊢
      obtain ⟨result, cache⟩ := compiled
      cases result with
      | error e => cases opened
      | ok found =>
        cases opened
        rfl
    · rw [if_neg valid] at opened
      cases opened

-- Where no program is found, the host is not asked anything: there is a message or a reply.
theorem execute_unopened {path : FunctionPath} {d : Dispatcher} (unopened : opening path d = none) :
    (∃ message cache, ∀ host, execute host path d = (.error (.failed message), { d with cache })) ∨
      ∃ value cache, ∀ host, execute host path d = ({ d with cache } : Dispatcher).reply value := by
  unfold opening at unopened
  unfold execute
  cases resolved : CallStack.resolve d.stack path with
  | error e => exact .inl ⟨_, d.cache, fun _ => rfl⟩
  | ok target =>
    rw [resolved] at unopened
    dsimp only at unopened ⊢
    by_cases valid : target.isValid = true
    · simp only [if_pos valid] at unopened ⊢
      generalize d.cache.resolve target = compiled at unopened ⊢
      obtain ⟨result, cache⟩ := compiled
      cases result with
      | ok found => cases unopened
      | error error =>
        cases error with
        | notFound path => exact .inr ⟨_, cache, fun _ => rfl⟩
        | parse path error => exact .inl ⟨_, cache, fun _ => rfl⟩
        | access place obstacle => exact .inl ⟨_, cache, fun _ => rfl⟩
    · simp only [if_neg valid]
      exact .inr ⟨_, d.cache, fun _ => rfl⟩

theorem opening_resolved {path target : FunctionPath} {d : Dispatcher} {program : Source.Program}
    {cache : ProgramCache} (resolved : CallStack.resolve d.stack path = .ok target)
    (valid : target.isValid = true) (found : d.cache.resolve target = (.ok program, cache)) :
    opening path d = some (program, { d with cache, stack := CallFrame.of target :: d.stack }) := by
  unfold opening
  rw [resolved]
  dsimp only
  rw [if_pos valid, found]

theorem opening_frame {path : FunctionPath} {d inside : Dispatcher} {program : Source.Program}
    (opened : opening path d = some (program, inside)) : ∃ target, CallStack.resolve d.stack path = .ok target ∧
      target.isValid = true ∧
      inside = { d with cache := (d.cache.resolve target).2, stack := CallFrame.of target :: d.stack } := by
  unfold opening at opened
  split at opened
  · cases opened
  · next target resolved =>
    split at opened
    · next valid =>
      split at opened
      · next found =>
        cases opened
        exact ⟨target, resolved, valid, by rw [found]⟩
      · cases opened
    · cases opened

theorem opening_kept {path : FunctionPath} {d inside : Dispatcher} {program : Source.Program}
    (opened : opening path d = some (program, inside)) :
    inside.params = d.params ∧ inside.batch = d.batch ∧ inside.context = d.context ∧
      inside.maxDepth = d.maxDepth ∧ inside.output = d.output ∧ ∃ frame, inside.stack = frame :: d.stack := by
  obtain ⟨target, _, _, rfl⟩ := opening_frame opened
  exact ⟨rfl, rfl, rfl, rfl, rfl, _, rfl⟩

def calleeWithin : Nat → Option Callee
  | 0 => none
  | levels + 1 => some (processWithin levels)

theorem processWithin_eq (levels : Nat) (path : FunctionPath) (d : Dispatcher) :
    processWithin levels path d = settle (execute (host (calleeWithin levels)) path d) := by
  cases levels <;> rfl

theorem entered_levels (mode : CallMode) (fields : Fields) {d : Dispatcher}
    (room : d.context.depth < Context.maxDepth) : (entered mode fields d).levels = d.levels - 1 := by
  unfold Dispatcher.levels
  rw [entered_depth mode fields room, entered_limit]
  omega

theorem callOperator_within (mode : CallMode) (args : List Json) (d : Dispatcher)
    (fits : d.maxDepth ≤ Context.maxDepth) :
    callOperator (calleeWithin d.levels) mode args d = callOperator (some run) mode args d := by
  cases counted : d.levels with
  | zero =>
    have full : d.maxDepth ≤ d.context.depth := Nat.le_of_sub_eq_zero counted
    unfold callOperator
    cases args with
    | nil => rfl
    | cons name rest =>
      dsimp only [calleeWithin]
      cases namedArgs mode rest with
      | error e => rfl
      | ok fields => simp only [if_pos full]
  | succ levels =>
    rw [calleeWithin, callOperator_some, callOperator_some]
    cases starts : started mode args d with
    | error e => rfl
    | ok call =>
      obtain ⟨path, fields⟩ := call
      have below := entered_levels mode fields (Nat.lt_of_lt_of_le (started_room starts) fits)
      have same : processWithin levels path (entered mode fields d) = run path (entered mode fields d) := by
        unfold run
        rw [below, counted, Nat.add_sub_cancel]
      dsimp only
      rw [callBy_parts, callBy_parts, same]

-- Whoever answers the calls of a program as running does, as long as everything is in its place, is not
-- told from it by the program.
theorem host_same {callee : Option Callee} {start : Dispatcher} (fits : start.maxDepth ≤ Context.maxDepth)
    (same : ∀ mode args s, Kept start s →
      callOperator callee mode args s = callOperator (some run) mode args s) :
    (host callee).Agrees (host (some run)) (fun s t => s = t ∧ Kept start s) (fun _ s t => s = t) := by
  refine ⟨?_, ?_, ?_, ?_⟩
  · intro s _ related
    obtain ⟨rfl, _⟩ := related
    rfl
  · intro s _ path value related
    obtain ⟨rfl, kept⟩ := related
    exact ⟨rfl, (host_keeps (only_callee run_orderly) fits).assign path value kept⟩
  · intro operator args s _ related
    obtain ⟨rfl, kept⟩ := related
    have invoked : (host callee).invoke operator args s = (host (some run)).invoke operator args s := by
      rw [host_invoke, host_invoke]
      cases Primitive.ofName? operator with
      | none => rfl
      | some p =>
        cases p with
        | call => exact same .shared args s kept
        | icall => exact same .isolated args s kept
        | _ => rfl
    have leaves := (host_keeps (only_callee run_orderly) fits).invoke operator args s kept
    rw [invoked]
    generalize (host (some run)).invoke operator args s = result at leaves
    cases leaves with
    | value kept' => exact .value ⟨rfl, kept'⟩
    | fault _ => exact .fault rfl
  · intro e s _ _ related
    obtain ⟨rfl, _⟩ := related
    rfl

theorem execute_same {callee : Option Callee} (path : FunctionPath) {d : Dispatcher}
    (fits : d.maxDepth ≤ Context.maxDepth)
    (same : ∀ mode args (s : Dispatcher), s.maxDepth = d.maxDepth → s.context.depth = d.context.depth →
      callOperator callee mode args s = callOperator (some run) mode args s) :
    execute (host callee) path d = execute (host (some run)) path d := by
  cases opened : opening path d with
  | none =>
    rcases execute_unopened opened with ⟨message, cache, unasked⟩ | ⟨value, cache, unasked⟩
    · rw [unasked, unasked]
    · rw [unasked, unasked]
  | some found =>
    obtain ⟨program, inside⟩ := found
    obtain ⟨_, _, context, limit, _, _⟩ := opening_kept opened
    have agree : (host callee).Agrees (host (some run)) (fun s t => s = t ∧ Kept inside s) (fun _ s t => s = t) :=
      host_same (limit ▸ fits) fun mode args s kept =>
        same mode args s (kept.limit.trans limit) (kept.depth.trans (congrArg Context.depth context))
    have ends := evalProgram_agrees agree program inside inside ⟨rfl, .refl inside⟩
    rw [execute_opened opened, execute_opened opened]
    generalize evalProgram (host callee) program inside = left at ends ⊢
    generalize evalProgram (host (some run)) program inside = right at ends ⊢
    cases ends with
    | value related => rw [related.1]
    | fault ended => rw [ended]

-- A program calls by running again.
theorem run_eq (path : FunctionPath) (d : Dispatcher) (fits : d.maxDepth ≤ Context.maxDepth) :
    run path d = settle (execute (host (some run)) path d) := by
  have within : execute (host (calleeWithin d.levels)) path d = execute (host (some run)) path d := by
    apply execute_same path fits
    intro mode args s limit depth
    have levels : s.levels = d.levels := by
      unfold Dispatcher.levels
      rw [limit, depth]
    rw [← levels]
    exact callOperator_within mode args s (limit ▸ fits)
  rw [← within]
  exact processWithin_eq d.levels path d

end Switchboard.Dispatcher
