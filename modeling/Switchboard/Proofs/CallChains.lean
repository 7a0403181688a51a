import Mathlib
import Switchboard.Proofs.Histories
import Switchboard.Proofs.NormalizedReplies
import Switchboard.Proofs.Recursion
import Switchboard.Proofs.StoredArtifacts

namespace Switchboard

namespace Dispatcher
open Eval

theorem reply_nested {d : Dispatcher} (inside : d.context.isNested = true) (value : Json) :
    d.reply value = (.error (.unwinding .earlyReturn),
      { d with output := d.output.setPending (some (.normalize value)) }) := by
  simp [reply, Output.reply, inside, Output.setPending]

theorem reply_entry {d : Dispatcher} (top : d.context.isNested = false) (entry : d.batch = true)
    (value : Json) : d.reply value = (.error (.unwinding .suppressed),
      { d with output := d.output.setPending (some (.normalize value)) }) := by
  simp [reply, Output.reply, top, entry, Output.setPending]

theorem reply_request {d : Dispatcher} (top : d.context.isNested = false) (request : d.batch = false)
    (value : Json) : d.reply value = (.error (.unwinding .terminated),
      { d with output := (d.output.emit (.normalize value)).1 }) := by
  simp [reply, Output.reply, top, request]

-- With an early return a reply is waiting, and it is one that normalization made.
def Waiting (e : Fault) (d : Dispatcher) : Prop :=
  e = .unwinding .earlyReturn → ∃ v, d.output.pending = some (Reply.normalize v)

theorem reply_waiting (d : Dispatcher) (value : Json) :
    Leaves (fun _ => True) Waiting (d.reply value) := by
  cases nested : d.context.isNested with
  | true =>
    rw [reply_nested nested]
    exact .fault fun _ => ⟨value, rfl⟩
  | false =>
    cases batch : d.batch with
    | true =>
      rw [reply_entry nested batch]
      exact .fault fun unwinds => by cases unwinds
    | false =>
      rw [reply_request nested batch]
      exact .fault fun unwinds => by cases unwinds

theorem afterCall_waiting (outcome : Outcome) (d : Dispatcher) :
    Leaves (fun _ => True) Waiting (afterCall outcome d) := by
  cases outcome with
  | completed value => exact .value trivial
  | earlyReturn reply =>
    unfold afterCall
    dsimp only
    split
    · exact reply_waiting d reply.value
    · exact .value trivial
  | suppressed reply => exact .fault fun unwinds => by cases unwinds
  | terminated => exact .fault fun unwinds => by cases unwinds
  | failed failure => cases failure <;> exact .fault fun unwinds => by cases unwinds

-- what can be wrong with a call before it starts
inductive Refusal (mode : CallMode) (d : Dispatcher) : Fault → Prop where
  | nameless : Refusal mode d (.argumentCount mode.operator 1 0)
  | misused (kinds : List String) : Refusal mode d (.argumentTypes mode.operator kinds)
  | exceeded (name : String) : Refusal mode d (d.depthExceeded name)

theorem started_refused {mode : CallMode} {args : List Json} {d : Dispatcher} {e : Fault}
    (refused : started mode args d = .error e) : Refusal mode d e := by
  unfold started at refused
  split at refused
  · cases refused
    exact .nameless
  · split at refused
    · next wrong =>
      cases refused
      obtain ⟨kinds, rfl⟩ := namedArgs_refused wrong
      exact .misused kinds
    · split at refused
      · cases refused
        exact .exceeded _
      · cases refused

theorem started_fault {mode : CallMode} {args : List Json} {d : Dispatcher} {e : Fault}
    (refused : started mode args d = .error e) : e.isUnwinding = false := by
  cases started_refused refused <;> rfl

theorem fault_waiting {e : Fault} (plain : e.isUnwinding = false) (d : Dispatcher) :
    Leaves (fun _ => True) Waiting ((.error e, d) : Except Fault Json × Dispatcher) := by
  apply Leaves.fault
  intro unwinds
  rw [unwinds] at plain
  cases plain

theorem callOperator_waiting (run : Callee) (mode : CallMode) (args : List Json) (d : Dispatcher) :
    Leaves (fun _ => True) Waiting (callOperator (some run) mode args d) := by
  rw [callOperator_some]
  cases starts : started mode args d with
  | error e => exact fault_waiting (started_fault starts) d
  | ok call => exact afterCall_waiting _ _

theorem plain_waiting {result : Except Fault Json × Dispatcher}
    (plain : ∀ {e after}, result = (.error e, after) → e.isUnwinding = false) :
    Leaves (fun _ => True) Waiting result := by
  obtain ⟨r, d⟩ := result
  cases r with
  | ok value => exact .value trivial
  | error e => exact fault_waiting (plain rfl) d

theorem stop_waiting (d : Dispatcher) : Leaves (fun _ => True) Waiting (stop d) := by
  unfold stop
  split <;> exact .fault fun unwinds => by cases unwinds

theorem primitive_waiting (run : Callee) (p : Primitive) (args : List Json) (d : Dispatcher) :
    Leaves (fun _ => True) Waiting (p.run (some run) args d) := by
  cases p with
  | call => exact callOperator_waiting run .shared args d
  | icall => exact callOperator_waiting run .isolated args d
  | reply => exact reply_waiting d _
  | header => exact plain_waiting (header_writes args).plain
  | contentType => exact plain_waiting (contentType_writes args).plain
  | echo => exact plain_waiting (echo_writes args).plain
  | request => exact plain_waiting (request_reads args).plain
  | stop => exact stop_waiting d
  | trace => exact .value trivial
  | throw => exact fault_waiting rfl d

theorem host_waiting (run : Callee) : (host (some run)).Keeps (fun _ => True) Waiting := by
  refine ⟨fun _ _ _ => trivial, ?_, ?_⟩
  · intro operator args d _
    rw [host_invoke]
    cases Primitive.ofName? operator with
    | none => exact .fault fun unwinds => by cases unwinds
    | some p => exact primitive_waiting run p args d
  · intro e d plain _ same
    subst same
    cases plain

theorem execute_waiting (run : Callee) (path : FunctionPath) (d : Dispatcher) :
    Leaves (fun _ => True) Waiting (execute (host (some run)) path d) := by
  cases opened : opening path d with
  | some found =>
    obtain ⟨program, inside⟩ := found
    rw [execute_opened opened]
    have leaves := evalProgram_keeps (host_waiting run) program inside trivial
    generalize evalProgram (host (some run)) program inside = result at leaves
    cases leaves with
    | value _ =>
      unfold closing
      dsimp only
      split
      · exact .value trivial
      · exact reply_waiting _ _
    | fault waiting => exact .fault waiting
  | none =>
    rcases execute_unopened opened with ⟨message, cache, same⟩ | ⟨value, cache, same⟩
    · rw [same]
      exact .fault fun unwinds => by cases unwinds
    · rw [same]
      exact reply_waiting _ value

structure Settled (result : Outcome × Dispatcher) : Prop where
  returned : ∀ r, result.1 = .earlyReturn r → (∃ v, r = Reply.normalize v) ∧ result.2.output.pending = none
  suppressed : ∀ r, result.1 = .suppressed r → result.2.output.pending = none
  failed : ∀ path, result.1 ≠ .failed (.functionNotFound path)

theorem settle_settled {result : Except Fault Json × Dispatcher}
    (leaves : Leaves (fun _ => True) Waiting result) : Settled (settle result) := by
  cases leaves with
  | value _ => refine ⟨?_, ?_, ?_⟩ <;> (intro _ same; cases same)
  | fault waiting =>
    rename_i e d
    cases e with
    | unwinding signal =>
      cases signal with
      | earlyReturn =>
        obtain ⟨v, pending⟩ := waiting rfl
        refine ⟨?_, ?_, ?_⟩ <;> (intro _ same; cases same)
        exact ⟨⟨v, by simp [pending]⟩, rfl⟩
      | suppressed =>
        refine ⟨?_, ?_, ?_⟩ <;> (intro _ same; cases same)
        rfl
      | terminated => refine ⟨?_, ?_, ?_⟩ <;> (intro _ same; cases same)
    | _ => refine ⟨?_, ?_, ?_⟩ <;> (intro _ same; cases same)

theorem run_settled (path : FunctionPath) (d : Dispatcher) (fits : d.maxDepth ≤ Context.maxDepth) :
    Settled (run path d) := by
  rw [run_eq path d fits]
  exact settle_settled (execute_waiting run path d)

-- what a callee's end makes of its caller, and of the output as the callee left it; nothing if the
-- caller goes on
def relay (caller : Dispatcher) (output : Output) : Outcome → Option (Outcome × Output)
  | .completed _ => none
  | .earlyReturn r =>
    if r.isFailure then
      if caller.context.isNested then some (.earlyReturn r, output)
      else if caller.batch then some (.suppressed r, output)
      else some (.terminated, (output.emit r).1)
    else none
  | .suppressed r => some (.suppressed r, output)
  | .terminated => some (.terminated, output)
  | .failed failure => some (.failed failure, output)

theorem relay_nested {caller callee : Dispatcher} {output output' : Output} {outcome reported : Outcome}
    (relayed : relay caller output outcome = some (reported, output'))
    (nested : callee.context.isNested = true) : relay callee output outcome = some (outcome, output) := by
  cases outcome with
  | completed value => cases relayed
  | earlyReturn r =>
    cases failing : r.isFailure with
    | false => simp [relay, failing] at relayed
    | true => simp [relay, failing, nested]
  | _ => rfl

theorem relay_same {caller after : Dispatcher} (depth : after.context.depth = caller.context.depth)
    (batch : after.batch = caller.batch) (output : Output) (outcome : Outcome) :
    relay after output outcome = relay caller output outcome := by
  have nested : after.context.isNested = caller.context.isNested := by
    unfold Context.isNested
    rw [depth]
  unfold relay
  rw [nested, batch]

-- an operation that leaves its program, and what the run of that program makes of it
def Reports (result : Except Fault Json × Dispatcher) (reported : Outcome) (output : Output) : Prop :=
  ∃ e left, result = (.error e, left) ∧ (settle (closing (.error e, left))).1 = reported ∧
    (settle (closing (.error e, left))).2.output = output

section
variable {d : Dispatcher} {reported : Outcome} {output : Output}

theorem reply_reports {v : Json} (failing : (Reply.normalize v).isFailure = true)
    (empty : d.output.pending = none)
    (relayed : relay d d.output (.earlyReturn (.normalize v)) = some (reported, output)) :
    Reports (d.reply (Reply.normalize v).value) reported output := by
  have again := Reply.normalize_again v
  simp only [relay, failing, if_true] at relayed
  cases inside : d.context.isNested with
  | true =>
    rw [reply_nested inside, again]
    simp only [inside, if_true] at relayed
    cases relayed
    refine ⟨_, _, rfl, ?_⟩
    simp [closing, settle, takeReply, Output.takePending, Output.setPending, ← empty]
  | false =>
    cases entry : d.batch with
    | true =>
      rw [reply_entry inside entry, again]
      simp only [inside, entry, Bool.false_eq_true, if_false, if_true] at relayed
      cases relayed
      refine ⟨_, _, rfl, ?_⟩
      simp [closing, settle, takeReply, Output.takePending, Output.setPending, ← empty]
    | false =>
      rw [reply_request inside entry, again]
      simp only [inside, entry, Bool.false_eq_true, if_false] at relayed
      cases relayed
      exact ⟨_, _, rfl, rfl, rfl⟩

theorem afterCall_reports {outcome : Outcome} (settled : Settled (outcome, d))
    (relayed : relay d d.output outcome = some (reported, output)) :
    Reports (afterCall outcome d) reported output := by
  cases outcome with
  | completed value => cases relayed
  | earlyReturn r =>
    cases failing : r.isFailure with
    | false => simp [relay, failing] at relayed
    | true =>
      obtain ⟨⟨v, same⟩, empty⟩ := settled.returned r rfl
      subst same
      have replies : afterCall (.earlyReturn (.normalize v)) d = d.reply (Reply.normalize v).value := by
        simp only [afterCall, failing, if_true]
      rw [replies]
      exact reply_reports failing empty relayed
  | suppressed r =>
    have empty : d.output.pending = none := settled.suppressed r rfl
    cases relayed
    refine ⟨_, _, rfl, ?_⟩
    simp [closing, settle, takeReply, Output.takePending, Output.setPending, ← empty]
  | terminated =>
    cases relayed
    exact ⟨_, _, rfl, rfl, rfl⟩
  | failed failure =>
    cases relayed
    cases failure with
    | functionNotFound path => exact absurd rfl (settled.failed path)
    | application message => exact ⟨_, _, rfl, rfl, rfl⟩
    | structural message => exact ⟨_, _, rfl, rfl, rfl⟩

end

def events (path : FunctionPath) (d : Dispatcher) : List (Event Dispatcher) :=
  match opening path d with
  | some (program, inside) => history (host (some run)) program inside
  | none => []

theorem events_eq {path : FunctionPath} {d inside : Dispatcher} {program : Source.Program}
    (opened : opening path d = some (program, inside)) :
    events path d = history (host (some run)) program inside := by
  unfold events
  rw [opened]

theorem events_opened {path : FunctionPath} {d : Dispatcher} {event : Event Dispatcher}
    (happens : event ∈ events path d) : ∃ program inside, opening path d = some (program, inside) ∧
      events path d = history (host (some run)) program inside := by
  unfold events at happens ⊢
  cases opened : opening path d with
  | none => simp [opened] at happens
  | some found => exact ⟨found.1, found.2, rfl, rfl⟩

-- Nothing that a program does is seen by the one that runs it, but in the output and the variables.
theorem event_kept {path : FunctionPath} {d : Dispatcher} (fits : d.maxDepth ≤ Context.maxDepth)
    {event : Event Dispatcher} (happens : event ∈ events path d) :
    ∃ program inside, opening path d = some (program, inside) ∧ Kept inside event.before := by
  obtain ⟨program, inside, opened, same⟩ := events_opened happens
  obtain ⟨_, _, _, limit, _, _⟩ := opening_kept opened
  rw [same] at happens
  exact ⟨program, inside, opened,
    history_before (host_keeps (only_callee run_orderly) (limit ▸ fits)) (.refl inside) happens⟩

theorem event_invoked {path : FunctionPath} {d : Dispatcher} {i : Invocation Dispatcher}
    (happens : .invoked i ∈ events path d) :
    (host (some run)).invoke i.operator i.args i.before = (i.result, i.after) := by
  obtain ⟨_, _, _, same⟩ := events_opened happens
  rw [same] at happens
  exact history_faithful (anything_keeps _) trivial happens

-- The program at `path`, run in `d`, comes to a call: from the state `i.before`, of the program `callee`.
structure Makes (path : FunctionPath) (d : Dispatcher) (i : Invocation Dispatcher) (mode : CallMode)
    (callee : FunctionPath) (fields : Fields) : Prop where
  happens : .invoked i ∈ events path d
  operator : i.operator = mode.operator
  starts : started mode i.args i.before = .ok (callee, fields)

theorem invoke_call {mode : CallMode} {args : List Json} {d : Dispatcher} {callee : FunctionPath}
    {fields : Fields} (starts : started mode args d = .ok (callee, fields)) :
    (host (some run)).invoke mode.operator args d =
      afterCall (d.call mode callee fields).1 (d.call mode callee fields).2 := by
  have called : callOperator (some run) mode args d =
      afterCall (d.call mode callee fields).1 (d.call mode callee fields).2 := by
    rw [callOperator_some, starts]
    rfl
  rw [host_invoke, ← called]
  cases mode <;> rfl

theorem resumed_output (mode : CallMode) (caller d : Dispatcher) :
    (resumed mode caller d).output = d.output := by
  cases mode <;> rfl

theorem call_settled (mode : CallMode) (callee : FunctionPath) (fields : Fields) (d : Dispatcher)
    (fits : d.maxDepth ≤ Context.maxDepth) : Settled (d.call mode callee fields) := by
  unfold call
  rw [callBy_parts]
  have settled := run_settled callee (entered mode fields d) (by rwa [entered_limit])
  refine ⟨?_, ?_, settled.failed⟩
  · intro r same
    rw [resumed_output]
    exact settled.returned r same
  · intro r same
    rw [resumed_output]
    exact settled.suppressed r same

section
variable {path callee : FunctionPath} {d : Dispatcher} {i : Invocation Dispatcher} {mode : CallMode}
  {fields : Fields}

theorem Makes.kept (makes : Makes path d i mode callee fields) (fits : d.maxDepth ≤ Context.maxDepth) :
    i.before.maxDepth = d.maxDepth ∧ i.before.context.depth = d.context.depth ∧ i.before.batch = d.batch := by
  obtain ⟨program, inside, opened, kept⟩ := event_kept fits makes.happens
  obtain ⟨_, batch, context, limit, _, _⟩ := opening_kept opened
  exact ⟨kept.limit.trans limit, kept.depth.trans (congrArg Context.depth context), kept.batch.trans batch⟩

theorem Makes.room (makes : Makes path d i mode callee fields) (fits : d.maxDepth ≤ Context.maxDepth) :
    i.before.context.depth < Context.maxDepth :=
  Nat.lt_of_lt_of_le (started_room makes.starts) ((makes.kept fits).1.symm ▸ fits)

theorem Makes.relayed (makes : Makes path d i mode callee fields) (fits : d.maxDepth ≤ Context.maxDepth)
    {reported : Outcome} {output : Output}
    (relayed : relay d (i.before.call mode callee fields).2.output (i.before.call mode callee fields).1 =
      some (reported, output)) :
    (run path d).1 = reported ∧ (run path d).2.output = output ∧
      (events path d).getLast? = some (.invoked i) := by
  obtain ⟨limit, depth, batch⟩ := makes.kept fits
  have fits' : i.before.maxDepth ≤ Context.maxDepth := limit.symm ▸ fits
  have kept := call_kept fits' (makes.room fits) mode callee fields
  rw [← relay_same (kept.depth.trans depth) (kept.batch.trans batch)] at relayed
  have settled : Settled ((i.before.call mode callee fields).1, (i.before.call mode callee fields).2) :=
    call_settled mode callee fields i.before fits'
  obtain ⟨e, left, fails, same, final⟩ := afterCall_reports settled relayed
  have invoked := event_invoked makes.happens
  rw [makes.operator, invoke_call makes.starts, fails, Prod.mk.injEq] at invoked
  have happens := makes.happens
  obtain ⟨program, inside, opened, recorded⟩ := events_opened happens
  rw [recorded] at happens ⊢
  obtain ⟨ended, latest⟩ := history_failed happens invoked.1.symm
  rw [run_eq path d fits, execute_opened opened, ended, ← invoked.2]
  exact ⟨same, final, latest⟩

end

-- one call after another, each made by the program that the one before it started
inductive Chain : FunctionPath → Dispatcher → FunctionPath → Dispatcher → Prop where
  | one {path d i mode callee fields} : Makes path d i mode callee fields →
    Chain path d callee (entered mode fields i.before)
  | more {path d i mode callee fields inner e} : Makes path d i mode callee fields →
    Chain callee (entered mode fields i.before) inner e → Chain path d inner e

theorem call_eq (mode : CallMode) (callee : FunctionPath) (fields : Fields) (d : Dispatcher) :
    (d.call mode callee fields).1 = (run callee (entered mode fields d)).1 ∧
      (d.call mode callee fields).2.output = (run callee (entered mode fields d)).2.output := by
  unfold call
  rw [callBy_parts]
  exact ⟨rfl, resumed_output _ _ _⟩

theorem Chain.relayed {path inner : FunctionPath} {d e : Dispatcher} (chain : Chain path d inner e)
    (fits : d.maxDepth ≤ Context.maxDepth) {reported : Outcome} {output : Output}
    (relayed : relay d (run inner e).2.output (run inner e).1 = some (reported, output)) :
    (run path d).1 = reported ∧ (run path d).2.output = output := by
  induction chain generalizing reported output with
  | one makes =>
    rw [← (call_eq _ _ _ _).1, ← (call_eq _ _ _ _).2] at relayed
    obtain ⟨same, final, _⟩ := makes.relayed fits relayed
    exact ⟨same, final⟩
  | @more path d i mode callee fields inner e makes _ ih =>
    have fits' : (entered mode fields i.before).maxDepth ≤ Context.maxDepth := by
      cases mode <;> exact (makes.kept fits).1.symm ▸ fits
    have nested : (entered mode fields i.before).context.isNested = true := by
      simp [Context.isNested, entered_depth mode fields (makes.room fits)]
    obtain ⟨same, final⟩ := ih fits' (relay_nested relayed nested)
    rw [← same, ← final, ← (call_eq _ _ _ _).1, ← (call_eq _ _ _ _).2] at relayed
    obtain ⟨same', final', _⟩ := makes.relayed fits relayed
    exact ⟨same', final'⟩

-- Whatever a call fails with, the program that made it does nothing more and ends with that; and along
-- a chain of calls what the innermost program fails with is reported at the outer end.
theorem failures_pass_through (d : Dispatcher) (fits : d.maxDepth ≤ Context.maxDepth)
    (path : FunctionPath) (reset : Bool) :
    let start : Dispatcher := if reset then { d with context := {} } else d
    (∀ i mode callee fields reported output, Makes path start i mode callee fields →
      relay start (i.before.call mode callee fields).2.output (i.before.call mode callee fields).1 =
        some (reported, output) →
      (d.process path reset).1 = reported ∧ (d.process path reset).2.output = output ∧
        (events path start).getLast? = some (.invoked i)) ∧
    (∀ inner e reported output, Chain path start inner e →
      relay start (run inner e).2.output (run inner e).1 = some (reported, output) →
      (d.process path reset).1 = reported ∧ (d.process path reset).2.output = output) := by
  intro start
  have fits' : start.maxDepth ≤ Context.maxDepth := by
    cases reset <;> exact fits
  unfold process
  exact ⟨fun i mode callee fields reported output makes relayed => makes.relayed fits' relayed,
    fun inner e reported output chain relayed => chain.relayed fits' relayed⟩

theorem sourceOnly_opening {code : String} {program : Source.Program}
    (compiles : ProgramCache.compileText ⟨"a"⟩ code = .ok program) {d : Dispatcher}
    (cache : d.cache = .sourceOnly code ⟨5, 0⟩) (top : d.stack = []) :
    ∃ inside, opening ⟨"a"⟩ d = some (program, inside) := by
  have valid : (FunctionPath.mk "a").isValid = true := by cbv
  have place : CallStack.resolve d.stack ⟨"a"⟩ = .ok ⟨"a"⟩ := by
    rw [top]
    cbv
  have found := ProgramCache.sourceOnly_resolve code ⟨5, 0⟩ program compiles
  rw [← cache] at found
  exact ⟨_, opening_resolved place valid found⟩

-- a request whose one program calls a name that none can have
def calling : Dispatcher := { cache := .sourceOnly "(icall '')" ⟨5, 0⟩ }

def callingProgram : Source.Program := [.template (.call "icall" [.literal (.string "")])]

theorem calling_opening {d : Dispatcher} (cache : d.cache = calling.cache) (top : d.stack = []) :
    ∃ inside, opening ⟨"a"⟩ d = some (callingProgram, inside) := by
  have compiles : ProgramCache.compileText ⟨"a"⟩ "(icall '')" = .ok callingProgram := by cbv
  exact sourceOnly_opening compiles cache top

theorem operator_node (host : Host σ) {operator : String} (plain : Form.ofName? operator = none)
    (foreign : Builtin.ofName? operator = none) (argument : Json) :
    evalNode host (.template (.call operator [.literal argument])) = host.invoke operator [argument] := by
  have applied : host.apply operator [argument] = host.invoke operator [argument] := by
    unfold Host.apply
    rw [foreign]
  rw [evalNode, evalExpr, plain, ← applied]
  rfl

-- A program that hands stated values to two operators of the host has two events, if the first of them goes well.
theorem operators_events (host : Host Dispatcher) {first second : String} (plain : Form.ofName? first = none)
    (foreign : Builtin.ofName? first = none) (plain' : Form.ofName? second = none)
    (foreign' : Builtin.ofName? second = none) (argument argument' : Json) {inside after : Dispatcher} {value : Json}
    (goes : host.invoke first [argument] inside = (.ok value, after)) :
    history host [.template (.call first [.literal argument]), .template (.call second [.literal argument'])] inside =
      [.invoked ⟨first, [argument], inside, .ok value, after⟩,
        .invoked ⟨second, [argument'], after, (host.invoke second [argument'] after).1,
          (host.invoke second [argument'] after).2⟩] := by
  have called : evalProgram host.recorded
      [.template (.call first [.literal argument]), .template (.call second [.literal argument'])] =
        Run.bind (host.recorded.invoke first [argument]) fun _ =>
          Run.bind (host.recorded.invoke second [argument']) pure := by
    rw [← operator_node _ plain foreign, ← operator_node _ plain' foreign']
    rfl
  have evaluates : (evalProgram host.recorded [.template (.call first [.literal argument]),
      .template (.call second [.literal argument'])] (inside, [])).2 = (host.recorded.invoke second [argument'] (after,
        [.invoked ⟨first, [argument], inside, .ok value, after⟩])).2 := by
    rw [called]
    unfold Run.bind
    rw [recorded_invoke, goes]
    dsimp only
    cases host.recorded.invoke second [argument'] (after, _) with
    | mk result last =>
      cases result <;> rfl
  rw [history, evaluates]
  rfl

theorem operator_events (host : Host Dispatcher) {operator : String} (plain : Form.ofName? operator = none)
    (foreign : Builtin.ofName? operator = none) (argument : Json) (inside : Dispatcher) :
    history host [.template (.call operator [.literal argument])] inside =
      [.invoked ⟨operator, [argument], inside, (host.invoke operator [argument] inside).1,
        (host.invoke operator [argument] inside).2⟩] := by
  have called : evalProgram host.recorded [.template (.call operator [.literal argument])] =
      Run.bind (host.recorded.invoke operator [argument]) pure := by
    rw [← operator_node _ plain foreign]
    rfl
  have evaluates : (evalProgram host.recorded [.template (.call operator [.literal argument])] (inside, [])).2 =
      (host.recorded.invoke operator [argument] (inside, [])).2 := by
    rw [called]
    unfold Run.bind
    cases host.recorded.invoke operator [argument] (inside, []) with
    | mk result after =>
      cases result <;> rfl
  rw [history, evaluates]
  rfl

theorem call_events (host : Host Dispatcher) (mode : CallMode) (name : String) (inside : Dispatcher) :
    history host [.template (.call mode.operator [.literal (.string name)])] inside =
      [.invoked ⟨mode.operator, [.string name], inside, (host.invoke mode.operator [.string name] inside).1,
        (host.invoke mode.operator [.string name] inside).2⟩] := by
  cases mode <;> exact operator_events host rfl rfl (.string name) inside

theorem calling_events (host : Host Dispatcher) (inside : Dispatcher) :
    history host callingProgram inside = [.invoked ⟨"icall", [.string ""], inside,
      (host.invoke "icall" [.string ""] inside).1, (host.invoke "icall" [.string ""] inside).2⟩] :=
  call_events host .isolated "" inside

theorem calling_makes {d : Dispatcher} (cache : d.cache = calling.cache) (top : d.stack = [])
    (room : d.context.depth < d.maxDepth) : ∃ i, Makes ⟨"a"⟩ d i .isolated ⟨""⟩ [] := by
  obtain ⟨inside, opened⟩ := calling_opening cache top
  obtain ⟨_, _, context, limit, _, _⟩ := opening_kept opened
  have starts : started .isolated [.string ""] inside = .ok (⟨""⟩, []) := by
    have room' : ¬ inside.maxDepth ≤ inside.context.depth := by
      rw [limit, context]
      exact Nat.not_le_of_lt room
    simp only [started, namedArgs, if_neg room']
    rfl
  let result := (host (some run)).invoke "icall" [.string ""] inside
  have happens : Event.invoked ⟨"icall", [.string ""], inside, result.1, result.2⟩ ∈ events ⟨"a"⟩ d := by
    unfold events
    rw [opened]
    dsimp only
    rw [calling_events]
    exact List.mem_singleton_self _
  exact ⟨_, happens, rfl, starts⟩

theorem run_nameless {d : Dispatcher} (fits : d.maxDepth ≤ Context.maxDepth)
    (nested : d.context.isNested = true) :
    run ⟨""⟩ d = (.earlyReturn (.normalize (Failure.functionNotFound ⟨""⟩).reply.value),
      { d with output := d.output.setPending none }) := by
  have place : CallStack.resolve d.stack ⟨""⟩ = .ok ⟨""⟩ := by
    unfold CallStack.resolve
    rw [if_neg (by decide)]
  have invalid : (FunctionPath.mk "").isValid = false := by cbv
  rw [run_eq ⟨""⟩ d fits]
  unfold execute
  rw [place]
  dsimp only
  rw [invalid, if_neg Bool.false_ne_true, replyNotFound, reply_nested nested]
  rfl

theorem failures_pass_through_nameless : ∃ i output,
    let callee := run ⟨""⟩ (entered .isolated [] i.before)
    calling.maxDepth ≤ Context.maxDepth ∧ Makes ⟨"a"⟩ calling i .isolated ⟨""⟩ [] ∧
      Chain ⟨"a"⟩ calling ⟨""⟩ (entered .isolated [] i.before) ∧
      relay calling callee.2.output callee.1 = some (.terminated, output) ∧
      (calling.process ⟨"a"⟩ true).1 = .terminated ∧ (calling.process ⟨"a"⟩ true).2.output = output ∧
      (events ⟨"a"⟩ calling).getLast? = some (.invoked i) := by
  have fits : calling.maxDepth ≤ Context.maxDepth := by decide
  obtain ⟨inside, opened⟩ := calling_opening (d := calling) rfl rfl
  obtain ⟨_, _, context, limit, _, _⟩ := opening_kept opened
  let result := (host (some run)).invoke "icall" [.string ""] inside
  let i : Invocation Dispatcher := ⟨"icall", [.string ""], inside, result.1, result.2⟩
  have recorded : events ⟨"a"⟩ calling = [.invoked i] := by
    unfold events
    rw [opened]
    exact calling_events _ inside
  have starts : started .isolated [.string ""] inside = .ok (⟨""⟩, []) := by
    have room : ¬ inside.maxDepth ≤ inside.context.depth := by
      rw [limit, context]
      decide
    simp only [started, namedArgs, if_neg room]
    rfl
  have makes : Makes ⟨"a"⟩ calling i .isolated ⟨""⟩ [] := ⟨by simp [recorded], rfl, starts⟩
  have nested : (entered .isolated [] inside).context.isNested = true := by
    have room : inside.context.depth < Context.maxDepth := by
      rw [context]
      decide
    simp [Context.isNested, entered_depth .isolated [] room]
  have ran := run_nameless (d := entered .isolated [] inside) (limit.symm ▸ fits) nested
  have relayed : relay calling (run ⟨""⟩ (entered .isolated [] inside)).2.output
      (run ⟨""⟩ (entered .isolated [] inside)).1 =
      some (.terminated, ((run ⟨""⟩ (entered .isolated [] inside)).2.output.emit
        (.normalize (Failure.functionNotFound ⟨""⟩).reply.value)).1) := by
    rw [ran]
    rfl
  have called := relayed
  rw [← (call_eq .isolated ⟨""⟩ [] inside).1, ← (call_eq .isolated ⟨""⟩ [] inside).2] at called
  obtain ⟨direct, chained⟩ := failures_pass_through calling fits ⟨"a"⟩ true
  obtain ⟨_, _, latest⟩ := direct i .isolated ⟨""⟩ [] _ _ makes called
  obtain ⟨reported, output⟩ := chained ⟨""⟩ (entered .isolated [] inside) _ _ (.one makes) relayed
  exact ⟨i, _, fits, makes, .one makes, relayed, reported, output, latest⟩

end Dispatcher
end Switchboard
