import Switchboard.Proofs.CallChains

namespace Switchboard.Dispatcher
open Eval

inductive Ending where
  | empty (value : Json)
  | stopped
  | replied (value : Json)
  | failed (failure : Failure)

def Ending.outcome (nested batch : Bool) : Ending → Outcome
  | .empty value => .completed value
  | .stopped => if batch then .suppressed .empty else .terminated
  | .replied value =>
    if nested then .earlyReturn (.normalize value)
    else if batch then .suppressed (.normalize value)
    else .terminated
  | .failed failure => .failed failure

-- Through a call passes what ends the calling program too.
def Ending.Passes : Ending → Prop
  | .empty _ => False
  | .stopped => True
  | .replied value => (Reply.normalize value).isFailure = true
  | .failed _ => True

def failureOf : Fault → Failure
  | .thrown message => .application message
  | e => .structural e.message

def absent (path : FunctionPath) : Json :=
  (Failure.functionNotFound path).reply.value

-- the program of a path and what it does, or why there is none
inductive Concludes : FunctionPath → Dispatcher → Ending → Prop where
  | frameless {path d e} : CallStack.resolve d.stack path = .error e →
    Concludes path d (.failed (.structural e.message))
  | impossible {path d target} : CallStack.resolve d.stack path = .ok target → target.isValid = false →
    Concludes path d (.replied (absent target))
  | missing {path d target unfound} : CallStack.resolve d.stack path = .ok target → target.isValid = true →
    (d.cache.resolve target).1 = .error (.notFound unfound) → Concludes path d (.replied (absent unfound))
  | unreadable {path d target e} : CallStack.resolve d.stack path = .ok target → target.isValid = true →
    (d.cache.resolve target).1 = .error e → (∀ unfound, e ≠ .notFound unfound) →
    Concludes path d (.failed (.structural e.message))
  | completed {path d program inside value after} : opening path d = some (program, inside) →
    evalProgram (host (some run)) program inside = (.ok value, after) → value.isEmpty = true →
    Concludes path d (.empty value)
  | valued {path d program inside value after} : opening path d = some (program, inside) →
    evalProgram (host (some run)) program inside = (.ok value, after) → value.isEmpty = false →
    Concludes path d (.replied value)
  | faulted {path d program inside e after} : opening path d = some (program, inside) →
    evalProgram (host (some run)) program inside = (.error e, after) → e.isUnwinding = false →
    Concludes path d (.failed (failureOf e))
  | returned {path d i} : .invoked i ∈ events path d → Primitive.ofName? i.operator = some .reply →
    Concludes path d (.replied (i.args.head?.getD .null))
  | stopped {path d i} : .invoked i ∈ events path d → Primitive.ofName? i.operator = some .stop →
    Concludes path d .stopped
  | relayed {path d i mode callee fields ending} : Makes path d i mode callee fields →
    Concludes callee (entered mode fields i.before) ending → ending.Passes → Concludes path d ending

theorem settle_reply (d : Dispatcher) (value : Json) :
    (settle (d.reply value)).1 = (Ending.replied value).outcome d.context.isNested d.batch := by
  cases nested : d.context.isNested with
  | true =>
    rw [reply_nested nested]
    rfl
  | false =>
    cases batch : d.batch with
    | true =>
      rw [reply_entry nested batch]
      rfl
    | false =>
      rw [reply_request nested batch]
      rfl

theorem settle_stop (d : Dispatcher) (nested : Bool) :
    (settle (stop d)).1 = Ending.stopped.outcome nested d.batch := by
  unfold stop Ending.outcome
  split <;> rfl

theorem settle_plain {e : Fault} (plain : e.isUnwinding = false) (d : Dispatcher) :
    (settle (.error e, d)).1 = .failed (failureOf e) := by
  cases e with
  | unwinding signal => cases plain
  | _ => rfl

-- The frame that is popped has no part in the outcome.
theorem settle_closing (e : Fault) (d : Dispatcher) :
    (settle (closing (.error e, d))).1 = (settle (.error e, d)).1 := by
  cases e with
  | unwinding signal => cases signal <;> rfl
  | _ => rfl

section
variable {path : FunctionPath} {d : Dispatcher}

theorem event_place (fits : d.maxDepth ≤ Context.maxDepth) {event : Event Dispatcher}
    (happens : event ∈ events path d) :
    event.before.context.isNested = d.context.isNested ∧ event.before.batch = d.batch := by
  obtain ⟨program, inside, opened, kept⟩ := event_kept fits happens
  obtain ⟨_, batch, context, _, _, _⟩ := opening_kept opened
  refine ⟨?_, kept.batch.trans batch⟩
  unfold Context.isNested
  rw [kept.depth, context]

theorem run_opened (fits : d.maxDepth ≤ Context.maxDepth) {program : Source.Program} {inside : Dispatcher}
    (opened : opening path d = some (program, inside)) :
    run path d = settle (closing (evalProgram (host (some run)) program inside)) := by
  rw [run_eq path d fits, execute_opened opened]

theorem run_failed (fits : d.maxDepth ≤ Context.maxDepth) {i : Invocation Dispatcher} {e : Fault}
    (happens : .invoked i ∈ events path d) (fails : i.result = .error e) :
    (run path d).1 = (settle (.error e, i.after)).1 := by
  obtain ⟨program, inside, opened, same⟩ := events_opened happens
  rw [same] at happens
  rw [run_opened fits opened, (history_failed happens fails).1, settle_closing]

theorem run_primitive (fits : d.maxDepth ≤ Context.maxDepth) {i : Invocation Dispatcher} {p : Primitive}
    (happens : .invoked i ∈ events path d) (named : Primitive.ofName? i.operator = some p) {e : Fault}
    (fails : (p.run (some run) i.args i.before).1 = .error e) :
    (run path d).1 = (settle (p.run (some run) i.args i.before)).1 := by
  have invoked := event_invoked happens
  rw [host_invoke, named] at invoked
  dsimp only at invoked
  rw [invoked] at fails ⊢
  dsimp only at fails
  rw [run_failed fits happens fails, fails]

-- A run that makes a call is inside no more than one call less than the callee.
theorem Makes.inside {i : Invocation Dispatcher} {mode : CallMode} {callee : FunctionPath} {fields : Fields}
    (makes : Makes path d i mode callee fields) (fits : d.maxDepth ≤ Context.maxDepth) :
    (entered mode fields i.before).maxDepth = d.maxDepth ∧
      (entered mode fields i.before).context.depth = d.context.depth + 1 ∧
      (entered mode fields i.before).batch = d.batch := by
  obtain ⟨limit, depth, batch⟩ := makes.kept fits
  have counted := entered_depth mode fields (makes.room fits)
  rw [depth] at counted
  exact ⟨(entered_limit ..).trans limit, counted, (entered_batch ..).trans batch⟩

theorem Makes.outcome {i : Invocation Dispatcher} {mode : CallMode} {callee : FunctionPath} {fields : Fields}
    (makes : Makes path d i mode callee fields) (fits : d.maxDepth ≤ Context.maxDepth) {ending : Ending}
    (ends : (run callee (entered mode fields i.before)).1 =
      ending.outcome (entered mode fields i.before).context.isNested (entered mode fields i.before).batch) :
    (i.before.call mode callee fields).1 = ending.outcome true d.batch := by
  obtain ⟨_, depth, batch⟩ := makes.inside fits
  have nested : (entered mode fields i.before).context.isNested = true := by
    simp [Context.isNested, depth]
  rw [(call_eq mode callee fields i.before).1, ends, nested, batch]

end

theorem relay_passes {ending : Ending} (passes : ending.Passes) (caller : Dispatcher) (output : Output) :
    ∃ left, relay caller output (ending.outcome true caller.batch) =
      some (ending.outcome caller.context.isNested caller.batch, left) := by
  cases ending with
  | empty value => cases passes
  | stopped =>
    unfold Ending.outcome
    dsimp only
    split <;> exact ⟨_, rfl⟩
  | replied value =>
    have failing : (Reply.normalize value).isFailure = true := passes
    simp only [Ending.outcome, if_true, relay, failing]
    split
    · exact ⟨_, rfl⟩
    · split <;> exact ⟨_, rfl⟩
  | failed failure => exact ⟨_, rfl⟩

-- What the programs do decides the outcome.
theorem Concludes.outcome {path : FunctionPath} {d : Dispatcher} {ending : Ending}
    (concludes : Concludes path d ending) (fits : d.maxDepth ≤ Context.maxDepth) :
    (run path d).1 = ending.outcome d.context.isNested d.batch := by
  induction concludes with
  | frameless resolved =>
    rw [run_eq _ _ fits]
    unfold execute
    rw [resolved]
    rfl
  | impossible resolved invalid =>
    rw [run_eq _ _ fits]
    unfold execute
    rw [resolved]
    dsimp only
    rw [invalid, if_neg Bool.false_ne_true]
    exact settle_reply _ _
  | @missing path d target unfound resolved valid found =>
    rw [run_eq _ _ fits]
    unfold execute
    rw [resolved]
    dsimp only
    rw [if_pos valid]
    generalize d.cache.resolve target = compiled at found
    obtain ⟨result, cache⟩ := compiled
    cases found
    exact settle_reply { d with cache } _
  | @unreadable path d target e resolved valid found other =>
    rw [run_eq _ _ fits]
    unfold execute
    rw [resolved]
    dsimp only
    rw [if_pos valid]
    generalize d.cache.resolve target = compiled at found
    obtain ⟨result, cache⟩ := compiled
    cases found
    cases e with
    | notFound unfound => exact absurd rfl (other unfound)
    | parse path error => rfl
    | access place obstacle => rfl
  | completed opened evaluates empty =>
    rw [run_opened fits opened, evaluates, closing, if_pos empty]
    rfl
  | @valued path d program inside value after opened evaluates full =>
    rw [run_opened fits opened, evaluates, closing, full, if_neg Bool.false_ne_true, settle_reply]
    obtain ⟨_, batch, context, limit, _, _⟩ := opening_kept opened
    have kept := evalProgram_kept (only_callee run_orderly) program inside (limit ▸ fits)
    rw [evaluates] at kept
    -- The value is handed out behind the program, as deep as before it and in the same batch.
    have nested : after.context.isNested = d.context.isNested := by
      unfold Context.isNested
      rw [kept.depth, context]
    show (Ending.replied value).outcome after.context.isNested after.batch = _
    rw [nested, kept.batch, batch]
  | faulted opened evaluates plain =>
    rw [run_opened fits opened, evaluates, settle_closing, settle_plain plain]
    rfl
  | @returned path d i happens named =>
    obtain ⟨nested, batch⟩ := event_place fits happens
    have replies := settle_reply i.before (i.args.head?.getD .null)
    rw [← nested, ← batch]
    exact (run_primitive fits happens named rfl).trans replies
  | @stopped path d i happens named =>
    obtain ⟨nested, batch⟩ := event_place fits happens
    have fails : ∃ e, (stop i.before).1 = .error e := by
      unfold stop
      split <;> exact ⟨_, rfl⟩
    obtain ⟨e, fails⟩ := fails
    rw [← nested, ← batch]
    exact (run_primitive fits happens named fails).trans (settle_stop i.before _)
  | @relayed path d i mode callee fields ending makes _ passes ih =>
    have called := makes.outcome fits (ih ((makes.inside fits).1 ▸ fits))
    obtain ⟨left, relayed⟩ := relay_passes passes d (i.before.call mode callee fields).2.output
    rw [← called] at relayed
    exact (makes.relayed fits relayed).1

theorem afterCall_onward {ending : Ending} (stays : ¬ ending.Passes) (batch : Bool) (d : Dispatcher) :
    ∃ value, afterCall (ending.outcome true batch) d = (.ok value, d) := by
  cases ending with
  | empty value => exact ⟨value, rfl⟩
  | replied value =>
    have succeeds : (Reply.normalize value).isFailure = false := by
      simpa only [Ending.Passes, Bool.not_eq_true] using stays
    exact ⟨_, by simp only [Ending.outcome, if_true, afterCall, succeeds, Bool.false_eq_true, if_false]; rfl⟩
  | stopped => exact absurd trivial stays
  | failed failure => exact absurd trivial stays

def CallMode.primitive : CallMode → Primitive
  | .shared => .call
  | .isolated => .icall

theorem CallMode.operator_named {name : String} {mode : CallMode}
    (named : Primitive.ofName? name = some mode.primitive) : name = mode.operator := by
  unfold Primitive.ofName? at named
  cases mode with
  | shared => grind [CallMode.primitive, CallMode.operator]
  | isolated => grind [CallMode.primitive, CallMode.operator]

-- A program is left by a reply, by a stop, or by what passes through a call.
theorem primitive_unwound {p : Primitive} {args : List Json} {d after : Dispatcher} {e : Fault}
    (fails : p.run (some run) args d = (.error e, after)) (unwinds : e.isUnwinding = true) :
    p = .reply ∨ p = .stop ∨ ∃ mode path fields, p = CallMode.primitive mode ∧
      started mode args d = .ok (path, fields) ∧
      afterCall (d.call mode path fields).1 (d.call mode path fields).2 = (.error e, after) := by
  have never : e.isUnwinding ≠ false := by simp [unwinds]
  have calls (mode : CallMode) (same : p = mode.primitive)
      (called : callOperator (some run) mode args d = (.error e, after)) : ∃ mode path fields,
      p = CallMode.primitive mode ∧ started mode args d = .ok (path, fields) ∧
        afterCall (d.call mode path fields).1 (d.call mode path fields).2 = (.error e, after) := by
    rw [callOperator_some] at called
    cases starts : started mode args d with
    | error refused =>
      rw [starts] at called
      cases called
      exact absurd (started_fault starts) never
    | ok call =>
      rw [starts] at called
      exact ⟨mode, call.1, call.2, same, starts, called⟩
  cases p with
  | reply => exact .inl rfl
  | stop => exact .inr (.inl rfl)
  | call => exact .inr (.inr (calls .shared rfl fails))
  | icall => exact .inr (.inr (calls .isolated rfl fails))
  | header => exact absurd ((header_writes args).plain fails) never
  | contentType => exact absurd ((contentType_writes args).plain fails) never
  | echo => exact absurd ((echo_writes args).plain fails) never
  | request => exact absurd ((request_reads args).plain fails) never
  | trace => cases fails
  | throw =>
    cases fails
    exact absurd rfl never

theorem unopened_concludes {path : FunctionPath} {d : Dispatcher} (unopened : opening path d = none) :
    ∃ ending, Concludes path d ending := by
  unfold opening at unopened
  cases resolved : CallStack.resolve d.stack path with
  | error e => exact ⟨_, .frameless resolved⟩
  | ok target =>
    rw [resolved] at unopened
    dsimp only at unopened
    cases valid : target.isValid with
    | false => exact ⟨_, .impossible resolved valid⟩
    | true =>
      rw [if_pos valid] at unopened
      cases found : (d.cache.resolve target).1 with
      | ok program =>
        generalize d.cache.resolve target = compiled at unopened found
        obtain ⟨result, cache⟩ := compiled
        cases found
        cases unopened
      | error e =>
        cases e with
        | notFound unfound => exact ⟨_, .missing resolved valid found⟩
        | parse path error => exact ⟨_, .unreadable resolved valid found (by simp)⟩
        | access place obstacle => exact ⟨_, .unreadable resolved valid found (by simp)⟩

theorem nameless_concludes (d : Dispatcher) : Concludes ⟨""⟩ d (.replied (absent ⟨""⟩)) := by
  have place : CallStack.resolve d.stack ⟨""⟩ = .ok ⟨""⟩ := by
    unfold CallStack.resolve
    rw [if_neg (by decide)]
  have invalid : (FunctionPath.mk "").isValid = false := by cbv
  exact .impossible place invalid

-- What passes to a run from the runs that its program starts holds of every run, by induction on the levels that
-- are left for calls.
theorem run_induction {motive : FunctionPath → Dispatcher → Prop}
    (step : ∀ path (d : Dispatcher), d.maxDepth ≤ Context.maxDepth →
      (∀ {i mode callee fields}, Makes path d i mode callee fields → motive callee (entered mode fields i.before)) →
      motive path d)
    (path : FunctionPath) (d : Dispatcher) (fits : d.maxDepth ≤ Context.maxDepth) : motive path d := by
  induction below : d.levels using Nat.strong_induction_on generalizing path d with
  | _ levels ih =>
    refine step path d fits ?_
    intro i mode callee fields makes
    obtain ⟨limit, depth, _⟩ := makes.inside fits
    have room := started_room makes.starts
    obtain ⟨unchanged, counted, _⟩ := makes.kept fits
    have fewer : (entered mode fields i.before).levels < levels := by
      unfold Dispatcher.levels at below ⊢
      omega
    exact ih _ fewer callee _ (limit ▸ fits) rfl

-- Every run comes to an end of one of these kinds.
theorem run_concludes (path : FunctionPath) (d : Dispatcher) (fits : d.maxDepth ≤ Context.maxDepth) :
    ∃ ending, Concludes path d ending := by
  refine run_induction (motive := fun path d => ∃ ending, Concludes path d ending) ?_ path d fits
  intro path d fits ih
  cases opened : opening path d with
  | none => exact unopened_concludes opened
  | some found =>
    obtain ⟨program, inside⟩ := found
    cases evaluates : evalProgram (host (some run)) program inside with
    | mk result after =>
      cases result with
      | ok value =>
        cases empty : value.isEmpty with
        | true => exact ⟨_, .completed opened evaluates empty⟩
        | false => exact ⟨_, .valued opened evaluates empty⟩
      | error e =>
        cases unwinds : e.isUnwinding with
        | false => exact ⟨_, .faulted opened evaluates unwinds⟩
        | true =>
          obtain ⟨i, happens, fails⟩ := history_unwound evaluates unwinds
          rw [← events_eq opened] at happens
          have invoked := event_invoked happens
          rw [host_invoke, fails] at invoked
          cases named : Primitive.ofName? i.operator with
          | none =>
            -- an operator that is unknown is no way to leave a program
            rw [named] at invoked
            cases (Prod.mk.inj invoked).1
            cases unwinds
          | some p =>
            rw [named] at invoked
            rcases primitive_unwound invoked unwinds with rfl | rfl | ⟨mode, callee, fields, rfl, starts, after⟩
            · exact ⟨_, .returned happens named⟩
            · exact ⟨_, .stopped happens named⟩
            · have makes : Makes path d i mode callee fields :=
                ⟨happens, CallMode.operator_named named, starts⟩
              obtain ⟨limit, _, _⟩ := makes.inside fits
              obtain ⟨ending, concludes⟩ := ih makes
              have called := makes.outcome fits (concludes.outcome (limit ▸ fits))
              refine ⟨ending, .relayed makes concludes ?_⟩
              by_contra stays
              obtain ⟨value, onward⟩ := afterCall_onward stays d.batch (i.before.call mode callee fields).2
              rw [called, onward] at after
              cases after

end Switchboard.Dispatcher
