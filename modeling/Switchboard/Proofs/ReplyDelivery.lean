import Switchboard.Dispatch.Request
import Switchboard.Proofs.RunInvariants

namespace Switchboard

theorem Json.isEmpty_cases {value : Json} (empty : value.isEmpty = true) :
    value = .null ∨ value = .string "" := by
  cases value with
  | null => exact .inl rfl
  | string s => exact .inr (congrArg Json.string (eq_of_beq empty))
  | _ => cases empty

theorem Output.emit_pending (o : Output) (sent : Reply) : (o.emit sent).1.pending = o.pending := by
  unfold Output.emit
  split
  · cases sent <;> rfl
  · rfl

def Outcome.Placed (nested batch : Bool) : Outcome → Prop
  | .completed value => value = .null ∨ value = .string ""
  | .earlyReturn _ => nested = true
  | .suppressed reply => batch = true ∧ (nested = true → reply = .empty)
  | .terminated => batch = false
  | .failed failure => ∀ path, failure ≠ .functionNotFound path

theorem Outcome.Placed.top {outcome : Outcome} {batch : Bool} (placed : outcome.Placed false batch)
    (single : batch = false) (reply : Reply) : outcome ≠ .earlyReturn reply ∧ outcome ≠ .suppressed reply := by
  subst single
  constructor
  · rintro rfl
    cases placed
  · rintro rfl
    cases placed.1

namespace Dispatcher
open Eval

def Vacant (d : Dispatcher) : Prop := d.output.pending = none

-- Only a signal that comes with a reply may leave one in the slot.
def Bears (e : Fault) (d : Dispatcher) : Prop :=
  e ≠ .unwinding .earlyReturn → e ≠ .unwinding .suppressed → Vacant d

section
variable {d : Dispatcher}

theorem reply_bears (vacant : Vacant d) (value : Json) : Leaves Vacant Bears (d.reply value) := by
  cases nested : d.context.isNested with
  | true =>
    rw [reply_nested nested]
    exact .fault fun other _ => absurd rfl other
  | false =>
    cases batch : d.batch with
    | true =>
      rw [reply_entry nested batch]
      exact .fault fun _ other => absurd rfl other
    | false =>
      rw [reply_request nested batch]
      exact .fault fun _ _ => (Output.emit_pending _ _).trans vacant

theorem stop_bears (vacant : Vacant d) : Leaves Vacant Bears (stop d) := by
  unfold stop
  split
  · exact .fault fun _ _ => rfl
  · exact .fault fun _ _ => vacant

theorem afterCall_bears (vacant : Vacant d) (outcome : Outcome) :
    Leaves Vacant Bears (afterCall outcome d) := by
  cases outcome with
  | completed value => exact .value vacant
  | earlyReturn reply =>
    unfold afterCall
    dsimp only
    split
    · exact reply_bears vacant reply.value
    · exact .value vacant
  | suppressed reply => exact .fault fun _ other => absurd rfl other
  | terminated => exact .fault fun _ _ => vacant
  | failed failure => cases failure <;> exact .fault fun _ _ => vacant

end

-- A run takes out of the slot what its programs leave in it.
theorem settle_vacant {result : Except Fault Json × Dispatcher} (leaves : Leaves Vacant Bears result) :
    Vacant (settle result).2 := by
  cases leaves with
  | value vacant => exact vacant
  | fault bears =>
    rename_i e left
    cases e with
    | unwinding signal =>
      cases signal with
      | earlyReturn => rfl
      | suppressed => rfl
      | terminated => exact bears (by simp) (by simp)
    | _ => exact bears (by simp) (by simp)

theorem vacant_lasts : Lasts Vacant Bears (fun _ => Vacant) where
  framed _ _ _ vacant := vacant
  popped _ bears := bears
  resumed _ vacant := vacant
  plain _ vacant _ _ := vacant
  writes _ mild vacant := (mild.pending _).trans vacant
  reply value vacant := reply_bears vacant value
  stop vacant := stop_bears vacant
  afterCall vacant := afterCall_bears vacant _
  settle := settle_vacant

-- the reply by which a run ends: the state in which it is made, and of which value
inductive Raises (path : FunctionPath) (d : Dispatcher) : Dispatcher → Json → Prop where
  | returned {i} : (events path d).getLast? = some (.invoked i) →
    Primitive.ofName? i.operator = some .reply → Raises path d i.before (i.args.head?.getD .null)
  | valued {program inside value after} : opening path d = some (program, inside) →
    evalProgram (host (some run)) program inside = (.ok value, after) → value.isEmpty = false →
    Raises path d after value
  | passed {i mode callee fields reply} : (events path d).getLast? = some (.invoked i) →
    Makes path d i mode callee fields → (i.before.call mode callee fields).1 = .earlyReturn reply →
    reply.isFailure = true → Raises path d (i.before.call mode callee fields).2 reply.value
  | impossible {target} : CallStack.resolve d.stack path = .ok target → target.isValid = false →
    Raises path d d (absent target)
  | missing {target unfound cache} : CallStack.resolve d.stack path = .ok target → target.isValid = true →
    d.cache.resolve target = (.error (.notFound unfound), cache) →
    Raises path d { d with cache } (absent unfound)

section
variable {path : FunctionPath} {d s : Dispatcher} {value : Json}

theorem Raises.vacant (raises : Raises path d s value) (vacant : Vacant d) : Vacant s := by
  cases raises with
  | returned last _ => exact vacant_lasts.event vacant (List.mem_of_getLast? last)
  | @valued program inside value after opened evaluates _ =>
    have leaves := evalProgram_keeps vacant_lasts.asked program inside (vacant_lasts.opening vacant opened)
    rw [evaluates] at leaves
    cases leaves with
    | value vacant' => exact vacant'
  | passed _ makes _ _ =>
    exact vacant_lasts.callBy vacant_lasts.run _ _ _ (vacant_lasts.event vacant makes.happens)
  | impossible _ _ => exact vacant
  | missing _ _ _ => exact vacant

theorem outcome_returned {ending : Ending} {batch : Bool} {reply : Reply}
    (returns : ending.outcome true batch = .earlyReturn reply) :
    ∃ value, ending = .replied value ∧ reply = .normalize value := by
  cases ending with
  | replied value =>
    cases returns
    exact ⟨value, rfl, rfl⟩
  | stopped => cases batch <;> cases returns
  | empty value => cases returns
  | failed failure => cases returns

theorem Raises.concludes (raises : Raises path d s value) (fits : d.maxDepth ≤ Context.maxDepth) :
    ∃ made, Concludes path d (.replied made) ∧ Reply.normalize made = Reply.normalize value := by
  cases raises with
  | returned last named => exact ⟨_, .returned (List.mem_of_getLast? last) named, rfl⟩
  | valued opened evaluates full => exact ⟨_, .valued opened evaluates full, rfl⟩
  | impossible resolved invalid => exact ⟨_, .impossible resolved invalid, rfl⟩
  | missing resolved valid found => exact ⟨_, .missing resolved valid (congrArg Prod.fst found), rfl⟩
  | @passed i mode callee fields reply last makes called failing =>
    have fits' := (makes.inside fits).1 ▸ fits
    obtain ⟨ending, concludes⟩ := run_concludes callee (entered mode fields i.before) fits'
    rw [makes.outcome fits (concludes.outcome fits')] at called
    obtain ⟨made, rfl, rfl⟩ := outcome_returned called
    exact ⟨made, .relayed makes concludes failing, (Reply.normalize_again _).symm⟩

theorem replied_outcome {made value : Json} (same : Reply.normalize made = Reply.normalize value)
    (nested batch : Bool) :
    (Ending.replied made).outcome nested batch = (Ending.replied value).outcome nested batch := by
  unfold Ending.outcome
  dsimp only
  rw [same]

theorem Raises.outcome (raises : Raises path d s value) (fits : d.maxDepth ≤ Context.maxDepth) :
    (run path d).1 = (Ending.replied value).outcome d.context.isNested d.batch := by
  obtain ⟨made, concludes, same⟩ := raises.concludes fits
  rw [concludes.outcome fits, replied_outcome same]

theorem reply_last {i : Invocation Dispatcher} (happens : .invoked i ∈ events path d)
    (named : Primitive.ofName? i.operator = some .reply) :
    (events path d).getLast? = some (.invoked i) := by
  have invoked := event_invoked happens
  rw [host_invoke, named] at invoked
  obtain ⟨program, inside, opened, same⟩ := events_opened happens
  rw [same] at happens ⊢
  exact (history_failed happens (congrArg Prod.fst invoked).symm).2

theorem Concludes.raises (concludes : Concludes path d (.replied value))
    (fits : d.maxDepth ≤ Context.maxDepth) :
    ∃ s made, Raises path d s made ∧ Reply.normalize value = Reply.normalize made := by
  cases concludes with
  | impossible resolved invalid => exact ⟨_, _, .impossible resolved invalid, rfl⟩
  | @missing _ _ target unfound resolved valid found =>
    cases compiled : d.cache.resolve target with
    | mk result cache =>
      rw [compiled] at found
      cases found
      exact ⟨_, _, .missing resolved valid compiled, rfl⟩
  | valued opened evaluates full => exact ⟨_, _, .valued opened evaluates full, rfl⟩
  | returned happens named => exact ⟨_, _, .returned (reply_last happens named) named, rfl⟩
  | @relayed _ _ i mode callee fields _ makes concludes passes =>
    have called := makes.outcome fits (concludes.outcome ((makes.inside fits).1 ▸ fits))
    obtain ⟨left, relayed⟩ := relay_passes passes d (i.before.call mode callee fields).2.output
    rw [← called] at relayed
    obtain ⟨_, _, last⟩ := makes.relayed fits relayed
    exact ⟨_, _, .passed last makes called passes, (Reply.normalize_again _).symm⟩

theorem concludes_empty (concludes : Concludes path d (.empty value)) : value.isEmpty = true := by
  cases concludes with
  | completed _ _ empty => exact empty
  | relayed _ _ passes => cases passes

theorem run_placed (path : FunctionPath) (d : Dispatcher) (fits : d.maxDepth ≤ Context.maxDepth) :
    (run path d).1.Placed d.context.isNested d.batch := by
  have found := (run_settled path d fits).failed
  obtain ⟨ending, concludes⟩ := run_concludes path d fits
  rw [concludes.outcome fits] at found ⊢
  cases ending with
  | empty value => exact Json.isEmpty_cases (concludes_empty concludes)
  | stopped =>
    unfold Ending.outcome
    cases batch : d.batch with
    | true => exact ⟨rfl, fun _ => rfl⟩
    | false => exact rfl
  | replied value =>
    unfold Ending.outcome
    cases nested : d.context.isNested with
    | true => exact rfl
    | false =>
      cases batch : d.batch with
      | true => exact ⟨rfl, fun inside => by cases inside⟩
      | false => exact rfl
  | failed failure => exact fun path same => found path (congrArg Outcome.failed same)

theorem run_returned (fits : d.maxDepth ≤ Context.maxDepth) {reply : Reply}
    (returns : (run path d).1 = .earlyReturn reply) :
    ∃ s value, Raises path d s value ∧ reply = .normalize value := by
  have nested := run_placed path d fits
  rw [returns] at nested
  obtain ⟨ending, concludes⟩ := run_concludes path d fits
  have outcome := concludes.outcome fits
  rw [returns, show d.context.isNested = true from nested] at outcome
  obtain ⟨value, rfl, rfl⟩ := outcome_returned outcome.symm
  exact concludes.raises fits

theorem run_suppressed (fits : d.maxDepth ≤ Context.maxDepth) {reply : Reply}
    (suppresses : (run path d).1 = .suppressed reply) :
    (∃ s value, Raises path d s value ∧ reply = .normalize value) ∨
      (reply = .empty ∧ Concludes path d .stopped) := by
  obtain ⟨ending, concludes⟩ := run_concludes path d fits
  have outcome := concludes.outcome fits
  rw [suppresses] at outcome
  cases ending with
  | empty value => cases outcome
  | failed failure => cases outcome
  | stopped =>
    unfold Ending.outcome at outcome
    dsimp only at outcome
    split at outcome <;> cases outcome
    exact .inr ⟨rfl, concludes⟩
  | replied value =>
    unfold Ending.outcome at outcome
    dsimp only at outcome
    split at outcome
    · cases outcome
    · split at outcome <;> cases outcome
      exact .inl (concludes.raises fits)

end

structure Delivered (path : FunctionPath) (d : Dispatcher) (result : Outcome × Dispatcher) : Prop where
  vacant : result.2.output.pending = none
  placed : result.1.Placed d.context.isNested d.batch
  made : ∀ i, .invoked i ∈ events path d → Primitive.ofName? i.operator = some .reply →
    Raises path d i.before (i.args.head?.getD .null)
  replied : ∀ s value, Raises path d s value → s.output.pending = none ∧
    result.1 = (Ending.replied value).outcome d.context.isNested d.batch
  returned : ∀ reply, result.1 = .earlyReturn reply →
    ∃ s value, Raises path d s value ∧ reply = .normalize value
  suppressed : ∀ reply, result.1 = .suppressed reply →
    (∃ s value, Raises path d s value ∧ reply = .normalize value) ∨
      (reply = .empty ∧ Concludes path d .stopped)
  calls : ∀ i mode callee fields, Makes path d i mode callee fields →
    (entered mode fields i.before).output.pending = none

theorem run_delivered {d : Dispatcher} (fits : d.maxDepth ≤ Context.maxDepth) (vacant : Vacant d)
    (path : FunctionPath) : Delivered path d (run path d) where
  vacant := vacant_lasts.run path d vacant
  placed := run_placed path d fits
  made _ happens named := .returned (reply_last happens named) named
  replied _ _ raises := ⟨raises.vacant vacant, raises.outcome fits⟩
  returned _ returns := run_returned fits returns
  suppressed _ suppresses := run_suppressed fits suppresses
  calls _ mode _ fields makes := vacant_lasts.entered mode fields (vacant_lasts.event vacant makes.happens)

-- Nothing that a request ignores can come of its run.
theorem start_reported {d : Dispatcher} (fits : d.maxDepth ≤ Context.maxDepth) (single : d.batch = false)
    (params : Params) (reply : Reply) :
    (d.start params).2.1 ≠ .earlyReturn reply ∧ (d.start params).2.1 ≠ .suppressed reply := by
  unfold start
  dsimp only
  split
  · exact ⟨Outcome.noConfusion, Outcome.noConfusion⟩
  · split
    · next path _ =>
      exact (run_placed path { d with params, context := {} } fits).top single reply
    · exact ⟨Outcome.noConfusion, Outcome.noConfusion⟩

-- No reply is lost, left behind or handed to the wrong run, wherever the run takes place; and at the top of a
-- request none is handed to anyone.
theorem replies_delivered (d : Dispatcher) (fits : d.maxDepth ≤ Context.maxDepth)
    (vacant : d.output.pending = none) (path : FunctionPath) (reset : Bool) :
    let start : Dispatcher := if reset then { d with context := {} } else d
    Delivered path start (d.process path reset) ∧
      (d.batch = false → ∀ params reply, (d.start params).2.1 ≠ .earlyReturn reply ∧
        (d.start params).2.1 ≠ .suppressed reply) := by
  intro start
  have fits' : start.maxDepth ≤ Context.maxDepth := by
    cases reset <;> exact fits
  have vacant' : Vacant start := by
    cases reset <;> exact vacant
  exact ⟨run_delivered fits' vacant' path, start_reported fits⟩

-- Inside a call, a program hands on the failing reply of the one that it calls.
theorem replies_delivered_nested :
    let d : Dispatcher := { calling with context := { depth := 1 } }
    d.maxDepth ≤ Context.maxDepth ∧ d.output.pending = none ∧
      Delivered ⟨"a"⟩ d (d.process ⟨"a"⟩ false) ∧
      (d.process ⟨"a"⟩ false).1 = .earlyReturn (.normalize (absent ⟨""⟩)) ∧
      (d.start {}).2.1 ≠ .earlyReturn .empty := by
  intro d
  have fits : d.maxDepth ≤ Context.maxDepth := by decide
  obtain ⟨delivered, reported⟩ := replies_delivered d fits rfl ⟨"a"⟩ false
  obtain ⟨i, makes⟩ := calling_makes (d := d) rfl rfl (by decide)
  have concludes : Concludes ⟨"a"⟩ d (.replied (absent ⟨""⟩)) :=
    .relayed makes (nameless_concludes _) (by rfl)
  exact ⟨fits, rfl, delivered, concludes.outcome fits, (reported rfl {} .empty).1⟩

end Dispatcher
end Switchboard
