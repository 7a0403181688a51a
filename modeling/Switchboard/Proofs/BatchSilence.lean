import Switchboard.Proofs.CallChains

namespace Switchboard.Dispatcher
open Eval

def written (d : Dispatcher) : Output := d.output.setPending none

structure Quiet (start d : Dispatcher) : Prop where
  batch : d.batch = true
  fits : d.maxDepth ≤ Context.maxDepth
  written : d.written = start.written

section
variable {start d : Dispatcher}

theorem Quiet.pending (quiet : Quiet start d) (reply : Option Reply) :
    Quiet start { d with output := d.output.setPending reply } :=
  ⟨quiet.batch, quiet.fits, quiet.written⟩

theorem Quiet.withContext (quiet : Quiet start d) (context : Context) : Quiet start { d with context } :=
  ⟨quiet.batch, quiet.fits, quiet.written⟩

theorem reply_waits (batch : d.batch = true) (value : Json) : ∃ signal, d.reply value =
    (.error (.unwinding signal), { d with output := d.output.setPending (some (.normalize value)) }) := by
  cases nested : d.context.isNested with
  | true => exact ⟨_, reply_nested nested value⟩
  | false => exact ⟨_, reply_entry nested batch value⟩

theorem Quiet.reply (quiet : Quiet start d) (value : Json) : Quiet start (d.reply value).2 := by
  obtain ⟨signal, replies⟩ := reply_waits quiet.batch value
  rw [replies]
  exact quiet.pending _

theorem Quiet.afterCall (quiet : Quiet start d) (outcome : Outcome) :
    Quiet start (afterCall outcome d).2 := by
  cases outcome with
  | completed value => exact quiet
  | earlyReturn reply =>
    unfold Dispatcher.afterCall
    dsimp only
    split
    · exact quiet.reply _
    · exact quiet
  | suppressed reply => exact quiet.pending _
  | terminated => exact quiet
  | failed failure => cases failure <;> exact quiet

theorem Quiet.entered (quiet : Quiet start d) (mode : CallMode) (fields : Fields) :
    Quiet start (entered mode fields d) := by
  cases mode <;> exact quiet.withContext _

theorem Quiet.resumed (quiet : Quiet start d) (mode : CallMode) (caller : Dispatcher) :
    Quiet start (resumed mode caller d) := by
  cases mode <;> exact quiet.withContext _

theorem unlessBatch_batch (batch : d.batch = true) (change : Output → Output) :
    unlessBatch change d = (.ok .null, d) := by
  simp [unlessBatch, batch]

theorem Writes.batch {operator : Run Dispatcher Json} (writes : Writes operator) (batch : d.batch = true) :
    (operator d).2 = d := by
  cases writes with
  | refused _ same => rw [same d]
  | change change same => rw [same d, unlessBatch_batch batch]

theorem stop_batch (batch : d.batch = true) :
    stop d = (.error (.unwinding .suppressed), { d with output := d.output.setPending none }) := by
  simp [stop, batch]

end

def Silent (run : Callee) : Prop :=
  ∀ path start d, Quiet start d → Quiet start (run path d).2

section
variable {callee : Option Callee} {start : Dispatcher}

theorem callOperator_silent (silent : ∀ run, callee = some run → Silent run) (mode : CallMode)
    (args : List Json) {d : Dispatcher} (quiet : Quiet start d) :
    Quiet start (callOperator callee mode args d).2 := by
  cases callee with
  | none =>
    obtain ⟨e, refused, _⟩ := callOperator_none mode args d
    rw [refused]
    exact quiet
  | some run =>
    rw [callOperator_some]
    cases started mode args d with
    | error e => exact quiet
    | ok call =>
      obtain ⟨path, fields⟩ := call
      dsimp only
      rw [callBy_parts]
      exact ((silent run rfl path start _ (quiet.entered mode fields)).resumed mode d).afterCall _

theorem primitive_silent (silent : ∀ run, callee = some run → Silent run) (p : Primitive)
    (args : List Json) {d : Dispatcher} (quiet : Quiet start d) : Quiet start (p.run callee args d).2 := by
  cases p with
  | call => exact callOperator_silent silent .shared args quiet
  | icall => exact callOperator_silent silent .isolated args quiet
  | reply => exact quiet.reply _
  | header => exact ((header_writes args).batch quiet.batch).symm ▸ quiet
  | contentType => exact ((contentType_writes args).batch quiet.batch).symm ▸ quiet
  | echo => exact ((echo_writes args).batch quiet.batch).symm ▸ quiet
  | request => exact ((request_reads args).same d).symm ▸ quiet
  | stop =>
    have stopped : Quiet start (Dispatcher.stop d).2 := by
      rw [stop_batch quiet.batch]
      exact quiet.pending none
    exact stopped
  | trace | throw => exact quiet

theorem host_silent (silent : ∀ run, callee = some run → Silent run) :
    (host callee).Keeps (Quiet start) (fun _ => Quiet start) := by
  refine ⟨fun _ _ quiet => quiet.withContext _, ?_, fun _ quiet => quiet⟩
  intro operator args d quiet
  rw [host_invoke]
  cases Primitive.ofName? operator with
  | none => exact .fault quiet
  | some p => exact .of_state (primitive_silent silent p args quiet)

theorem opening_quiet {path : FunctionPath} {d inside : Dispatcher} {program : Source.Program}
    (quiet : Quiet start d) (opened : opening path d = some (program, inside)) : Quiet start inside := by
  obtain ⟨_, batch, _, limit, output, _⟩ := opening_kept opened
  refine ⟨batch.trans quiet.batch, limit ▸ quiet.fits, ?_⟩
  unfold written
  rw [output]
  exact quiet.written

theorem closing_quiet {result : Except Fault Json × Dispatcher} (quiet : Quiet start result.2) :
    Quiet start (closing result).2 := by
  obtain ⟨r, d⟩ := result
  have popped : Quiet start { d with stack := d.stack.tail } := ⟨quiet.batch, quiet.fits, quiet.written⟩
  cases r with
  | error e => exact popped
  | ok value =>
    unfold closing
    dsimp only
    split
    · exact popped
    · exact popped.reply _

theorem execute_quiet (silent : ∀ run, callee = some run → Silent run) (path : FunctionPath)
    {d : Dispatcher} (quiet : Quiet start d) : Quiet start (execute (host callee) path d).2 := by
  cases opened : opening path d with
  | some found =>
    obtain ⟨program, inside⟩ := found
    rw [execute_opened opened]
    exact closing_quiet (evalProgram_keeps (host_silent silent) program inside (opening_quiet quiet opened)).state
  | none =>
    have cached (cache : ProgramCache) : Quiet start { d with cache } :=
      ⟨quiet.batch, quiet.fits, quiet.written⟩
    rcases execute_unopened opened with ⟨message, cache, same⟩ | ⟨value, cache, same⟩
    · rw [same]
      exact cached cache
    · rw [same]
      exact (cached cache).reply value

theorem settle_quiet {result : Except Fault Json × Dispatcher} (quiet : Quiet start result.2) :
    Quiet start (settle result).2 := by
  obtain ⟨r, d⟩ := result
  unfold settle
  split <;> rename_i same <;> cases same
  · exact quiet
  · exact quiet.pending none
  · exact quiet.pending none
  all_goals exact quiet

end

theorem processWithin_silent (levels : Nat) : Silent (processWithin levels) :=
  processWithin_induction (fun _ silent path _ _ quiet => settle_quiet (execute_quiet silent path quiet)) levels

theorem run_silent : Silent run :=
  fun path start d => processWithin_silent d.levels path start d

-- the states in which a run finds itself, those of the programs it calls included
inductive During : FunctionPath → Dispatcher → Dispatcher → Prop where
  | opened {path d program inside} : opening path d = some (program, inside) → During path d inside
  | before {path d event} : event ∈ events path d → During path d event.before
  | after {path d i} : .invoked i ∈ events path d → During path d i.after
  | called {path d i mode callee fields m} : Makes path d i mode callee fields →
    During callee (entered mode fields i.before) m → During path d m
  | ended {path d} : During path d (run path d).2

section
variable {start d m : Dispatcher} {path : FunctionPath}

theorem before_quiet (quiet : Quiet start d) {event : Event Dispatcher} (happens : event ∈ events path d) :
    Quiet start event.before := by
  obtain ⟨program, inside, opened, same⟩ := events_opened happens
  rw [same] at happens
  exact history_before (host_silent (only_callee run_silent)) (opening_quiet quiet opened) happens

theorem after_quiet (quiet : Quiet start d) {i : Invocation Dispatcher} (happens : .invoked i ∈ events path d) :
    Quiet start i.after := by
  have leaves := (host_silent (only_callee run_silent)).invoke i.operator i.args i.before
    (before_quiet quiet happens)
  rw [event_invoked happens] at leaves
  exact leaves.state

theorem During.quiet (during : During path d m) (quiet : Quiet start d) : Quiet start m := by
  induction during with
  | opened found => exact opening_quiet quiet found
  | before happens => exact before_quiet quiet happens
  | after happens => exact after_quiet quiet happens
  | called makes _ ih => exact ih ((before_quiet quiet makes.happens).entered _ _)
  | ended => exact run_silent _ _ _ quiet

end

inductive Moment (requested : Params) : List BatchEntry → Dispatcher → Dispatcher → Prop where
  | between {entries d} : Moment requested entries d d
  | inside {entry rest d m params path} : entryParams requested entry = some params →
    params.functionPath = some path → During path { d with params, context := {} } m →
    Moment requested (entry :: rest) d m
  | later {entry rest d m} : Moment requested rest (d.runEntry requested entry).2 m →
    Moment requested (entry :: rest) d m

theorem runEntry_quiet (requested : Params) (entry : BatchEntry) {start d : Dispatcher}
    (quiet : Quiet start d) : Quiet start (d.runEntry requested entry).2 := by
  have fresh (params : Params) (context : Context) : Quiet start { d with params, context } :=
    ⟨quiet.batch, quiet.fits, quiet.written⟩
  unfold runEntry
  split
  · exact quiet
  · next params _ =>
    unfold runNamed
    split
    · exact fresh params d.context
    · next path _ => exact run_silent path start _ (fresh params {})

theorem Moment.quiet {requested : Params} {entries : List BatchEntry} {start d m : Dispatcher}
    (moment : Moment requested entries d m) (quiet : Quiet start d) : Quiet start m := by
  induction moment with
  | between => exact quiet
  | inside _ _ during => exact during.quiet ⟨quiet.batch, quiet.fits, quiet.written⟩
  | later _ ih => exact ih (runEntry_quiet requested _ quiet)

end Switchboard.Dispatcher
