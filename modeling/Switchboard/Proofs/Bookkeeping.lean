import Switchboard.Dispatch.Batch
import Switchboard.Proofs.Evaluation
import Switchboard.Proofs.StoredArtifacts

namespace Switchboard

theorem Context.set_depth (c : Context) (path : String) (value : Json) :
    (c.set path value).depth = c.depth := by
  unfold set
  split
  · rfl
  · split
    · split
      · cases value <;> rfl
      · rfl
    · rfl

namespace Dispatcher
open Eval

structure Kept (before after : Dispatcher) : Prop where
  stack : after.stack = before.stack
  params : after.params = before.params
  batch : after.batch = before.batch
  depth : after.context.depth = before.context.depth
  limit : after.maxDepth = before.maxDepth

theorem Kept.refl (d : Dispatcher) : Kept d d := ⟨rfl, rfl, rfl, rfl, rfl⟩

theorem Kept.trans {a b c : Dispatcher} (first : Kept a b) (second : Kept b c) : Kept a c :=
  ⟨second.stack.trans first.stack, second.params.trans first.params, second.batch.trans first.batch,
    second.depth.trans first.depth, second.limit.trans first.limit⟩

theorem Kept.withOutput {d after : Dispatcher} (kept : Kept d after) (output : Output) :
    Kept d { after with output } :=
  ⟨kept.stack, kept.params, kept.batch, kept.depth, kept.limit⟩

-- It neither ends the output nor touches the reply that waits in it.
structure Mild (change : Output → Output) : Prop where
  pending : ∀ o, (change o).pending = o.pending
  terminated : ∀ o, (change o).isTerminated = o.isTerminated

theorem setContentType_mild (contentType : String) : Mild fun o => o.setContentType contentType := by
  constructor <;> (rintro ⟨phase, _, _, _⟩; cases phase <;> rfl)

theorem addHeader_mild (name value : String) : Mild fun o => o.addHeader name value := by
  constructor <;> (rintro ⟨phase, _, _, _⟩; cases phase <;> rfl)

theorem echo_mild (content : String) : Mild fun o => o.echo content := by
  constructor <;> (rintro ⟨phase, _, _, _⟩; cases phase <;> rfl)

-- An operator that writes fails in place, or makes one change to the output of a request.
inductive Writes (operator : Run Dispatcher Json) : Prop where
  | refused {e : Fault} : e.isUnwinding = false → (∀ d, operator d = (.error e, d)) → Writes operator
  | change (change : Output → Output) : (∀ d, operator d = unlessBatch change d) → Mild change →
    Writes operator

theorem setHeader_writes (name value : String) : Writes (setHeader name value) := by
  by_cases empty : name = ""
  · apply Writes.refused (e := .failed "Header name must not be empty") rfl
    intro d
    simp [setHeader, empty, Run.fail]
  · apply Writes.change (fun o => if isContentType name then o.setContentType value else o.addHeader name value)
    · intro d
      simp [setHeader, empty]
    · split
      · exact setContentType_mild value
      · exact addHeader_mild name value

theorem header_writes : ∀ args, Writes (header args)
  | [] => .refused rfl fun _ => rfl
  | [line] => by
    simp only [header]
    cases Text.cutString ':' line.text with
    | none => exact .refused rfl fun _ => rfl
    | some parts => exact setHeader_writes _ _
  | [name, value] => setHeader_writes name.text value.text
  | _ :: _ :: _ :: _ => .refused rfl fun _ => rfl

theorem contentType_writes : ∀ args, Writes (contentType args)
  | [] => .refused rfl fun _ => rfl
  | [value] => .change (fun o => o.setContentType value.text) (fun _ => rfl) (setContentType_mild value.text)
  | _ :: _ :: _ => .refused rfl fun _ => rfl

theorem echo_writes (args : List Json) : Writes (unlessBatch fun o => o.echo (echoLine args)) :=
  .change _ (fun _ => rfl) (echo_mild _)

theorem Writes.output {operator : Run Dispatcher Json} (writes : Writes operator) (d : Dispatcher) :
    ∃ result output, operator d = (result, { d with output }) := by
  cases writes with
  | refused _ same => exact ⟨_, d.output, same d⟩
  | change change same =>
    rw [same d]
    unfold unlessBatch
    split
    · exact ⟨_, d.output, rfl⟩
    · exact ⟨_, _, rfl⟩

theorem Writes.plain {operator : Run Dispatcher Json} (writes : Writes operator) {d after : Dispatcher}
    {e : Fault} (fails : operator d = (.error e, after)) : e.isUnwinding = false := by
  cases writes with
  | refused plain same =>
    rw [same d] at fails
    cases fails
    exact plain
  | change change same =>
    rw [same d] at fails
    cases fails

-- The request is read as it is, or the reading fails in place.
inductive Reads (operator : Run Dispatcher Json) : Prop where
  | refused {e : Fault} : e.isUnwinding = false → (∀ d, operator d = (.error e, d)) → Reads operator
  | value (value : Params → Json) : (∀ d, operator d = (.ok (value d.params), d)) → Reads operator

theorem request_reads : ∀ args, Reads (request args)
  | [] => .value Params.toJson fun _ => rfl
  | [name] => .value (fun params => (params.get name.text).elim Json.null Json.string) fun _ => rfl
  | _ :: _ :: _ => .refused rfl fun _ => rfl

theorem Reads.same {operator : Run Dispatcher Json} (reads : Reads operator) (d : Dispatcher) :
    (operator d).2 = d := by
  cases reads with
  | refused _ same => rw [same d]
  | value value same => rw [same d]

theorem Reads.plain {operator : Run Dispatcher Json} (reads : Reads operator) {d after : Dispatcher}
    {e : Fault} (fails : operator d = (.error e, after)) : e.isUnwinding = false := by
  cases reads with
  | refused plain same =>
    rw [same d] at fails
    cases fails
    exact plain
  | value value same =>
    rw [same d] at fails
    cases fails

theorem stop_output (d : Dispatcher) : ∃ result output, stop d = (result, { d with output }) := by
  unfold stop
  split <;> exact ⟨_, _, rfl⟩

theorem primitive_output {p : Primitive} (noCall : p ≠ .call) (noIcall : p ≠ .icall)
    (callee : Option Callee) (args : List Json) (d : Dispatcher) :
    ∃ result output, p.run callee args d = (result, { d with output }) := by
  cases p with
  | call => exact absurd rfl noCall
  | icall => exact absurd rfl noIcall
  | header => exact (header_writes args).output d
  | contentType => exact (contentType_writes args).output d
  | echo => exact (echo_writes args).output d
  | reply => exact ⟨_, _, rfl⟩
  | stop => exact stop_output d
  | trace => exact ⟨_, d.output, rfl⟩
  | throw => exact ⟨_, d.output, rfl⟩
  | request => exact ⟨_, d.output, Prod.ext rfl ((request_reads args).same d)⟩

theorem namedArgs_refused {mode : CallMode} {args : List Json} {e : Fault}
    (wrong : namedArgs mode args = .error e) : ∃ kinds, e = .argumentTypes mode.operator kinds := by
  unfold namedArgs at wrong
  split at wrong <;> cases wrong
  exact ⟨_, rfl⟩

theorem namedArgs_fault {mode : CallMode} {args : List Json} {e : Fault}
    (wrong : namedArgs mode args = .error e) : e.isUnwinding = false := by
  obtain ⟨kinds, rfl⟩ := namedArgs_refused wrong
  rfl

-- What a call starts, if it starts anything: the callee and its arguments.
def started (mode : CallMode) (args : List Json) (d : Dispatcher) : Except Fault (FunctionPath × Fields) :=
  match args with
  | [] => .error (.argumentCount mode.operator 1 0)
  | name :: rest =>
    match namedArgs mode rest with
    | .error e => .error e
    | .ok fields =>
      if d.maxDepth ≤ d.context.depth then .error (d.depthExceeded name.text)
      else .ok (⟨name.text⟩, fields)

theorem started_room {mode : CallMode} {args : List Json} {d : Dispatcher} {path : FunctionPath}
    {fields : Fields} (starts : started mode args d = .ok (path, fields)) :
    d.context.depth < d.maxDepth := by
  unfold started at starts
  split at starts
  · cases starts
  · split at starts
    · cases starts
    · split at starts
      · cases starts
      · next room => exact Nat.lt_of_not_le room

theorem callOperator_some (run : Callee) (mode : CallMode) (args : List Json) (d : Dispatcher) :
    callOperator (some run) mode args d =
      match started mode args d with
      | .error e => (.error e, d)
      | .ok (path, fields) => afterCall (callBy mode run path fields d).1 (callBy mode run path fields d).2 := by
  unfold callOperator started
  cases args with
  | nil => rfl
  | cons name rest =>
    dsimp only
    cases namedArgs mode rest with
    | error e => rfl
    | ok fields =>
      dsimp only
      split <;> rfl

theorem callOperator_none (mode : CallMode) (args : List Json) (d : Dispatcher) :
    ∃ e, callOperator none mode args d = (.error e, d) ∧ e.isUnwinding = false := by
  unfold callOperator
  cases args with
  | nil => exact ⟨_, rfl, rfl⟩
  | cons name rest =>
    dsimp only
    cases named : namedArgs mode rest with
    | error e => exact ⟨e, rfl, namedArgs_fault named⟩
    | ok fields => exact ⟨_, rfl, rfl⟩

theorem afterCall_output (outcome : Outcome) (d : Dispatcher) :
    ∃ result output, afterCall outcome d = (result, { d with output }) := by
  cases outcome with
  | completed value => exact ⟨_, d.output, rfl⟩
  | earlyReturn reply =>
    unfold afterCall
    dsimp only
    split
    · exact ⟨_, _, rfl⟩
    · exact ⟨_, d.output, rfl⟩
  | suppressed reply => exact ⟨_, _, rfl⟩
  | terminated => exact ⟨_, d.output, rfl⟩
  | failed failure => cases failure <;> exact ⟨_, d.output, rfl⟩

def entered (mode : CallMode) (fields : Fields) (d : Dispatcher) : Dispatcher :=
  match mode with
  | .shared => { d with context := { d.context.enter with args := fields } }
  | .isolated => { d with context := .isolated d.context.enter.depth fields }

section
variable (mode : CallMode) (fields : Fields) (d : Dispatcher)

@[simp]
theorem entered_limit : (entered mode fields d).maxDepth = d.maxDepth := by cases mode <;> rfl

@[simp]
theorem entered_stack : (entered mode fields d).stack = d.stack := by cases mode <;> rfl

@[simp]
theorem entered_batch : (entered mode fields d).batch = d.batch := by cases mode <;> rfl

end

-- what the caller goes on with after a callee that ended in `d`
def resumed (mode : CallMode) (caller d : Dispatcher) : Dispatcher :=
  match mode with
  | .shared => { d with context := { d.context with args := caller.context.args }.leave }
  | .isolated => { d with context := caller.context.enter.leave }

theorem callBy_parts (mode : CallMode) (run : Callee) (path : FunctionPath) (fields : Fields)
    (d : Dispatcher) : callBy mode run path fields d =
      ((run path (entered mode fields d)).1, resumed mode d (run path (entered mode fields d)).2) := by
  cases mode <;> rfl

theorem entered_depth (mode : CallMode) (fields : Fields) {d : Dispatcher}
    (room : d.context.depth < Context.maxDepth) :
    (entered mode fields d).context.depth = d.context.depth + 1 := by
  cases mode <;> exact Nat.min_eq_left room

theorem leave_enter {c : Context} (room : c.depth < Context.maxDepth) : c.enter.leave = c := by
  have up : min (c.depth + 1) Context.maxDepth = c.depth + 1 := Nat.min_eq_left room
  unfold Context.enter Context.leave
  simp only [up, Nat.add_sub_cancel]

theorem resumed_kept {mode : CallMode} {fields : Fields} {d callee : Dispatcher}
    (room : d.context.depth < Context.maxDepth) (kept : Kept (entered mode fields d) callee) :
    Kept d (resumed mode d callee) := by
  obtain ⟨stack, params, batch, depth, limit⟩ := kept
  rw [entered_depth mode fields room] at depth
  cases mode with
  | shared => exact ⟨stack, params, batch, by simp [resumed, Context.leave, depth], limit⟩
  | isolated => exact ⟨stack, params, batch, by simp [resumed, leave_enter room], limit⟩

theorem resumed_args (caller d : Dispatcher) :
    (resumed .shared caller d).context.args = caller.context.args := rfl

theorem resumed_context {caller : Dispatcher} (room : caller.context.depth < Context.maxDepth)
    (d : Dispatcher) : (resumed .isolated caller d).context = caller.context :=
  leave_enter room

-- a way to run programs that leaves everything in its place
def Orderly (run : Callee) : Prop :=
  ∀ path (d : Dispatcher), d.maxDepth ≤ Context.maxDepth → Kept d (run path d).2

theorem callOperator_kept {callee : Option Callee} (orderly : ∀ run, callee = some run → Orderly run)
    (mode : CallMode) (args : List Json) (d : Dispatcher) (fits : d.maxDepth ≤ Context.maxDepth) :
    Kept d (callOperator callee mode args d).2 := by
  cases callee with
  | none =>
    obtain ⟨e, refused, _⟩ := callOperator_none mode args d
    rw [refused]
    exact .refl d
  | some run =>
    rw [callOperator_some]
    cases starts : started mode args d with
    | error e => exact .refl d
    | ok call =>
      obtain ⟨path, fields⟩ := call
      have room := Nat.lt_of_lt_of_le (started_room starts) fits
      have inside : Kept (entered mode fields d) (run path (entered mode fields d)).2 :=
        orderly run rfl path _ (by rwa [entered_limit])
      obtain ⟨result, output, after⟩ := afterCall_output (callBy mode run path fields d).1
        (callBy mode run path fields d).2
      dsimp only
      rw [after, callBy_parts]
      exact (resumed_kept room inside).withOutput output

theorem primitive_kept {callee : Option Callee} (orderly : ∀ run, callee = some run → Orderly run)
    (p : Primitive) (args : List Json) (d : Dispatcher) (fits : d.maxDepth ≤ Context.maxDepth) :
    Kept d (p.run callee args d).2 := by
  by_cases isCall : p = .call
  · subst isCall
    exact callOperator_kept orderly .shared args d fits
  · by_cases isIcall : p = .icall
    · subst isIcall
      exact callOperator_kept orderly .isolated args d fits
    · obtain ⟨result, output, changed⟩ := primitive_output isCall isIcall callee args d
      rw [changed]
      exact (Kept.refl d).withOutput output

theorem host_invoke (callee : Option Callee) (operator : String) (args : List Json) (d : Dispatcher) :
    (host callee).invoke operator args d =
      match Primitive.ofName? operator with
      | some p => p.run callee args d
      | none => (.error (.undefined operator), d) := by
  simp only [Host.invoke, host]
  cases Primitive.ofName? operator <;> rfl

theorem host_keeps {callee : Option Callee} (orderly : ∀ run, callee = some run → Orderly run)
    {start : Dispatcher} (fits : start.maxDepth ≤ Context.maxDepth) :
    (host callee).Keeps (Kept start) (fun _ => Kept start) := by
  refine ⟨?_, ?_, fun _ kept => kept⟩
  · intro d path value kept
    exact ⟨kept.stack, kept.params, kept.batch, (Context.set_depth _ _ _).trans kept.depth, kept.limit⟩
  · intro operator args d kept
    rw [host_invoke]
    cases Primitive.ofName? operator with
    | none => exact .fault kept
    | some p => exact .of_state (kept.trans (primitive_kept orderly p args d (kept.limit.symm ▸ fits)))

theorem evalProgram_kept {callee : Option Callee} (orderly : ∀ run, callee = some run → Orderly run)
    (program : Source.Program) (d : Dispatcher) (fits : d.maxDepth ≤ Context.maxDepth) :
    Kept d (evalProgram (host callee) program d).2 :=
  (evalProgram_keeps (host_keeps orderly fits) program d (.refl d)).state

theorem executeProgram_kept {callee : Option Callee} (orderly : ∀ run, callee = some run → Orderly run)
    (path : FunctionPath) (program : Source.Program) (d : Dispatcher)
    (fits : d.maxDepth ≤ Context.maxDepth) :
    Kept d (executeProgram (host callee) path program d).2 := by
  have kept := evalProgram_kept orderly program { d with stack := CallFrame.of path :: d.stack } fits
  unfold executeProgram
  dsimp only
  generalize evalProgram (host callee) program { d with stack := CallFrame.of path :: d.stack } = result
    at kept ⊢
  obtain ⟨r, d'⟩ := result
  have popped : Kept d { d' with stack := d'.stack.tail } :=
    ⟨by rw [kept.stack]; rfl, kept.params, kept.batch, kept.depth, kept.limit⟩
  cases r with
  | error e => exact popped
  | ok value =>
    dsimp only
    split
    · exact popped
    · exact popped.withOutput _

theorem execute_kept {callee : Option Callee} (orderly : ∀ run, callee = some run → Orderly run)
    (path : FunctionPath) (d : Dispatcher) (fits : d.maxDepth ≤ Context.maxDepth) :
    Kept d (execute (host callee) path d).2 := by
  have same (cache : ProgramCache) : Kept d { d with cache } := ⟨rfl, rfl, rfl, rfl, rfl⟩
  unfold execute
  split
  · exact .refl d
  · next target _ =>
    split
    · dsimp only
      split
      · exact (same _).trans (executeProgram_kept orderly target _ { d with cache := _ } fits)
      · exact (same _).withOutput _
      · exact same _
    · exact (Kept.refl d).withOutput _

theorem settle_kept {start : Dispatcher} {result : Except Fault Json × Dispatcher}
    (kept : Kept start result.2) : Kept start (settle result).2 := by
  obtain ⟨r, d⟩ := result
  unfold settle
  split <;> rename_i same <;> cases same
  · exact kept
  · exact kept.withOutput _
  · exact kept.withOutput _
  all_goals exact kept

theorem only_callee {good : Callee → Prop} {run : Callee} (holds : good run) :
    ∀ callee, some run = some callee → good callee := by
  intro _ same
  cases same
  exact holds

-- What passes from the callees of programs to the programs holds at all levels.
theorem processWithin_induction {motive : Callee → Prop}
    (step : ∀ callee, (∀ run, callee = some run → motive run) →
      motive fun path d => settle (execute (host callee) path d))
    (levels : Nat) : motive (processWithin levels) := by
  induction levels with
  | zero => exact step none (by simp)
  | succ levels ih => exact step (some (processWithin levels)) (only_callee ih)

theorem processWithin_orderly (levels : Nat) : Orderly (processWithin levels) :=
  processWithin_induction (fun _ orderly path d fits => settle_kept (execute_kept orderly path d fits)) levels

theorem run_orderly : Orderly run :=
  fun path d fits => processWithin_orderly d.levels path d fits

theorem call_kept {d : Dispatcher} (fits : d.maxDepth ≤ Context.maxDepth)
    (room : d.context.depth < Context.maxDepth) (mode : CallMode) (path : FunctionPath) (args : Fields) :
    Kept d (d.call mode path args).2 := by
  unfold call
  rw [callBy_parts]
  exact resumed_kept room (run_orderly path _ (by rwa [entered_limit]))

theorem runNamed_kept (d : Dispatcher) (fits : d.maxDepth ≤ Context.maxDepth) :
    d.runNamed.2.stack = d.stack ∧ d.runNamed.2.batch = d.batch ∧ d.runNamed.2.maxDepth = d.maxDepth := by
  unfold runNamed
  split
  · exact ⟨rfl, rfl, rfl⟩
  · next path _ =>
    have kept := run_orderly path { d with context := {} } fits
    exact ⟨kept.stack, kept.batch, kept.limit⟩

-- An entry replaces the parameters; everything else is in place for the next one.
theorem runEntry_kept (requested : Params) (entry : BatchEntry) (d : Dispatcher)
    (fits : d.maxDepth ≤ Context.maxDepth) :
    (d.runEntry requested entry).2.stack = d.stack ∧ (d.runEntry requested entry).2.batch = d.batch ∧
      (d.runEntry requested entry).2.maxDepth = d.maxDepth := by
  unfold runEntry
  split
  · exact ⟨rfl, rfl, rfl⟩
  · next params _ => exact runNamed_kept { d with params } fits

theorem runEntries_kept (requested : Params) (entries : List BatchEntry) :
    ∀ (done : Fields) (d : Dispatcher), d.maxDepth ≤ Context.maxDepth →
      (runEntries requested done entries d).2.stack = d.stack ∧
        (runEntries requested done entries d).2.batch = d.batch ∧
        (runEntries requested done entries d).2.maxDepth = d.maxDepth := by
  induction entries with
  | nil => exact fun _ _ _ => ⟨rfl, rfl, rfl⟩
  | cons entry rest ih =>
    intro done d fits
    obtain ⟨stack, batch, limit⟩ := runEntry_kept requested entry d fits
    obtain ⟨stack', batch', limit'⟩ :=
      ih (Entries.put entry.label (d.runEntry requested entry).1 done) _ (limit.symm ▸ fits)
    exact ⟨stack'.trans stack, batch'.trans batch, limit'.trans limit⟩

structure Restored (d : Dispatcher) (path : FunctionPath) (args : Fields) (envelope : String) : Prop where
  process : Kept d (d.process path false).2
  call : Kept d (d.call .shared path args).2 ∧
    (d.call .shared path args).2.context.args = d.context.args
  icall : Kept d (d.call .isolated path args).2 ∧ (d.call .isolated path args).2.context = d.context
  reset : (d.process path true).2.stack = d.stack ∧ (d.process path true).2.params = d.params ∧
    (d.process path true).2.batch = d.batch ∧ (d.process path true).2.context.depth = 0
  batch : d.batch = false → (d.runBatch envelope).2.stack = d.stack ∧
    (d.runBatch envelope).2.params = d.params ∧ (d.runBatch envelope).2.batch = false

-- The bounds are those of the counter: a limit that it can hold, and a depth that it can still count up.
theorem bookkeeping_restored (d : Dispatcher) (fits : d.maxDepth ≤ Context.maxDepth)
    (room : d.context.depth < Context.maxDepth) (path : FunctionPath) (args : Fields) (envelope : String) :
    Restored d path args envelope := by
  refine ⟨run_orderly path d fits, ?_, ?_, ?_, ?_⟩
  · refine ⟨call_kept fits room .shared path args, ?_⟩
    rw [call, callBy_parts]
    exact resumed_args d _
  · refine ⟨call_kept fits room .isolated path args, ?_⟩
    rw [call, callBy_parts]
    exact resumed_context room _
  · have kept := run_orderly path { d with context := {} } fits
    exact ⟨kept.stack, kept.params, kept.batch, kept.depth⟩
  · intro _
    obtain ⟨stack, _, _⟩ :=
      runEntries_kept d.params (Envelope.entries envelope) [] { d with batch := true } fits
    exact ⟨stack, rfl, rfl⟩

-- Inside two others that are running, a program that calls itself up to the limit.
theorem bookkeeping_restored_inside : let d : Dispatcher :=
      { cache := .sourceOnly "(icall 'a')" ⟨5, 0⟩, maxDepth := 4, params := { values := [("f", "outer")] },
        stack := [.of ⟨"lib.inner"⟩, .of ⟨"outer"⟩],
        context := { vars := [("total", .null)], args := [("of", .bool true)], depth := 1 } }
    4 ≤ Context.maxDepth ∧ 1 < Context.maxDepth ∧ CallStack.resolve d.stack ⟨"a"⟩ = .ok ⟨"a"⟩ ∧
      (d.cache.resolve ⟨"a"⟩).1 = .ok [.template (.call "icall" [.literal (.string "a")])] ∧
      Restored d ⟨"a"⟩ [("x", .null)] "a,Zj1h" := by
  intro d
  have fits : 4 ≤ Context.maxDepth := by decide
  have room : 1 < Context.maxDepth := by decide
  have compiles : ProgramCache.compileText ⟨"a"⟩ "(icall 'a')" =
      .ok [.template (.call "icall" [.literal (.string "a")])] := by cbv
  have found := ProgramCache.sourceOnly_resolve "(icall 'a')" ⟨5, 0⟩ _ compiles
  exact ⟨fits, room, rfl, congrArg Prod.fst found, bookkeeping_restored d fits room ⟨"a"⟩ [("x", .null)] "a,Zj1h"⟩

end Dispatcher
end Switchboard
