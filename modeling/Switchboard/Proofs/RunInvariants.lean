import Switchboard.Proofs.CallDepth

namespace Switchboard.Dispatcher
open Eval

-- The property of the states in which a program goes on, what is left of it where a fault leaves the program,
-- and what is known where a run has ended. Nothing of it may hang on the programs, the frames or the variables.
structure Lasts (going : Dispatcher → Prop) (left : Fault → Dispatcher → Prop)
    (done : Outcome → Dispatcher → Prop) : Prop where
  framed : ∀ {d} cache stack context, going d → going { d with cache, stack, context }
  popped : ∀ {e d} stack, left e d → left e { d with stack }
  resumed : ∀ {outcome d} context, done outcome d → done outcome { d with context }
  plain : ∀ {e d}, e.isUnwinding = false → going d → left e d
  writes : ∀ {d change}, d.batch = false → Mild change → going d → going { d with output := change d.output }
  reply : ∀ {d} value, going d → Leaves going left (d.reply value)
  stop : ∀ {d}, going d → Leaves going left (Dispatcher.stop d)
  afterCall : ∀ {outcome d}, done outcome d → Leaves going left (afterCall outcome d)
  settle : ∀ {result}, Leaves going left result → done (settle result).1 (settle result).2

-- a way to run programs that ends as it should where it starts as it should
def Reliable (going : Dispatcher → Prop) (done : Outcome → Dispatcher → Prop) (run : Callee) : Prop :=
  ∀ path d, going d → done (run path d).1 (run path d).2

theorem opening_framed {path : FunctionPath} {d inside : Dispatcher} {program : Source.Program}
    (opened : opening path d = some (program, inside)) :
    ∃ cache stack, inside = { d with cache, stack } := by
  obtain ⟨target, _, _, rfl⟩ := opening_frame opened
  exact ⟨_, _, rfl⟩

theorem entered_framed (mode : CallMode) (fields : Fields) (d : Dispatcher) :
    ∃ context, entered mode fields d = { d with context } := by
  cases mode <;> exact ⟨_, rfl⟩

theorem resumed_framed (mode : CallMode) (caller d : Dispatcher) :
    ∃ context, resumed mode caller d = { d with context } := by
  cases mode <;> exact ⟨_, rfl⟩

namespace Lasts

variable {going : Dispatcher → Prop} {left : Fault → Dispatcher → Prop} {done : Outcome → Dispatcher → Prop}
  {callee : Option Callee} {path : FunctionPath} {d inside : Dispatcher}

theorem opening (lasts : Lasts going left done) {program : Source.Program} (good : going d)
    (opened : Dispatcher.opening path d = some (program, inside)) : going inside := by
  obtain ⟨cache, stack, rfl⟩ := opening_framed opened
  exact lasts.framed cache stack d.context good

theorem entered (lasts : Lasts going left done) (mode : CallMode) (fields : Fields) (good : going d) :
    going (entered mode fields d) := by
  obtain ⟨context, same⟩ := entered_framed mode fields d
  rw [same]
  exact lasts.framed d.cache d.stack context good

theorem written (lasts : Lasts going left done) {operator : Run Dispatcher Json} (writes : Writes operator)
    (good : going d) : Leaves going left (operator d) := by
  cases writes with
  | refused plain same =>
    rw [same d]
    exact .fault (lasts.plain plain good)
  | change change same mild =>
    rw [same d]
    unfold unlessBatch
    split
    · exact .value good
    · next single => exact .value (lasts.writes (Bool.eq_false_of_not_eq_true single) mild good)

theorem read (lasts : Lasts going left done) {operator : Run Dispatcher Json} (reads : Reads operator)
    (good : going d) : Leaves going left (operator d) := by
  cases reads with
  | refused plain same =>
    rw [same d]
    exact .fault (lasts.plain plain good)
  | value value same =>
    rw [same d]
    exact .value good

theorem callBy (lasts : Lasts going left done) {run : Callee} (reliable : Reliable going done run)
    (mode : CallMode) (path : FunctionPath) (fields : Fields) (good : going d) :
    done (callBy mode run path fields d).1 (callBy mode run path fields d).2 := by
  rw [callBy_parts]
  obtain ⟨context, same⟩ := resumed_framed mode d (run path (Dispatcher.entered mode fields d)).2
  rw [same]
  exact lasts.resumed context (reliable path _ (lasts.entered mode fields good))

theorem callOperator (lasts : Lasts going left done)
    (reliable : ∀ run, callee = some run → Reliable going done run) (mode : CallMode) (args : List Json)
    (good : going d) : Leaves going left (callOperator callee mode args d) := by
  cases callee with
  | none =>
    obtain ⟨e, refused, plain⟩ := callOperator_none mode args d
    rw [refused]
    exact .fault (lasts.plain plain good)
  | some run =>
    rw [callOperator_some]
    cases starts : started mode args d with
    | error e => exact .fault (lasts.plain (started_fault starts) good)
    | ok call => exact lasts.afterCall (lasts.callBy (reliable run rfl) mode call.1 call.2 good)

theorem primitive (lasts : Lasts going left done)
    (reliable : ∀ run, callee = some run → Reliable going done run) (p : Primitive) (args : List Json)
    (good : going d) : Leaves going left (p.run callee args d) := by
  cases p with
  | call => exact lasts.callOperator reliable .shared args good
  | icall => exact lasts.callOperator reliable .isolated args good
  | reply => exact lasts.reply _ good
  | stop => exact lasts.stop good
  | header => exact lasts.written (header_writes args) good
  | contentType => exact lasts.written (contentType_writes args) good
  | echo => exact lasts.written (echo_writes args) good
  | request => exact lasts.read (request_reads args) good
  | trace => exact .value good
  | throw => exact .fault (lasts.plain rfl good)

theorem host (lasts : Lasts going left done)
    (reliable : ∀ run, callee = some run → Reliable going done run) :
    (host callee).Keeps going left := by
  refine ⟨?_, ?_, lasts.plain⟩
  · intro d path value good
    exact lasts.framed d.cache d.stack _ good
  · intro operator args d good
    rw [host_invoke]
    cases Primitive.ofName? operator with
    | none => exact .fault (lasts.plain rfl good)
    | some p => exact lasts.primitive reliable p args good

theorem closing (lasts : Lasts going left done) {result : Except Fault Json × Dispatcher}
    (leaves : Leaves going left result) : Leaves going left (closing result) := by
  cases leaves with
  | fault gone => exact .fault (lasts.popped _ gone)
  | value good =>
    rename_i s value
    have popped : going { s with stack := s.stack.tail } := lasts.framed s.cache s.stack.tail s.context good
    unfold Dispatcher.closing
    dsimp only
    split
    · exact .value popped
    · exact lasts.reply value popped

theorem execute (lasts : Lasts going left done)
    (reliable : ∀ run, callee = some run → Reliable going done run) (path : FunctionPath) (good : going d) :
    Leaves going left (execute (Dispatcher.host callee) path d) := by
  cases opened : Dispatcher.opening path d with
  | some found =>
    obtain ⟨program, inside⟩ := found
    rw [execute_opened opened]
    exact lasts.closing (evalProgram_keeps (lasts.host reliable) program inside (lasts.opening good opened))
  | none =>
    have cached (cache : ProgramCache) : going { d with cache } := lasts.framed cache d.stack d.context good
    rcases execute_unopened opened with ⟨message, cache, same⟩ | ⟨value, cache, same⟩
    · rw [same]
      exact .fault (lasts.plain rfl (cached cache))
    · rw [same]
      exact lasts.reply value (cached cache)

theorem processWithin (lasts : Lasts going left done) (levels : Nat) :
    Reliable going done (processWithin levels) :=
  processWithin_induction (fun _ reliable path _ good => lasts.settle (lasts.execute reliable path good)) levels

theorem run (lasts : Lasts going left done) : Reliable going done run :=
  fun path d => lasts.processWithin d.levels path d

theorem asked (lasts : Lasts going left done) : (Dispatcher.host (some Dispatcher.run)).Keeps going left :=
  lasts.host (only_callee lasts.run)

theorem event (lasts : Lasts going left done) (good : going d) {event : Event Dispatcher}
    (happens : event ∈ events path d) : going event.before := by
  obtain ⟨program, inside, opened, same⟩ := events_opened happens
  rw [same] at happens
  exact history_before lasts.asked (lasts.opening good opened) happens

end Lasts
end Switchboard.Dispatcher
