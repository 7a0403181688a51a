import Switchboard.Proofs.BatchIsolation
import Switchboard.Proofs.CacheExchange

namespace Switchboard.Dispatcher
open Eval

-- The cache is the same, or another one that answers alike; what was asked of it before may differ.
structure SameButBindings (one other : Dispatcher) : Prop where
  cache : one.cache.Interchangeable other.cache
  limit : other.maxDepth = one.maxDepth
  params : other.params = one.params
  stack : other.stack = one.stack
  output : other.output = one.output
  batch : other.batch = one.batch
  depth : other.context.depth = one.context.depth

theorem SameButBindings.entered {one other : Dispatcher} (same : SameButBindings one other) (args : Fields) :
    Exchanged (entered .isolated args one) (entered .isolated args other) := by
  refine ⟨other.cache, same.cache, ?_⟩
  simp only [Dispatcher.entered, Context.enter, same.limit, same.params, same.stack, same.output, same.batch,
    same.depth]

-- Back in the two callers, only what was their own is different.
theorem SameButBindings.resumed {one other after after' : Dispatcher} (same : SameButBindings one other)
    (exchanged : Exchanged after after') :
    SameButBindings (resumed .isolated one after) (resumed .isolated other after') := by
  obtain ⟨cache, answers, rfl⟩ := exchanged
  refine ⟨answers, rfl, rfl, rfl, rfl, rfl, ?_⟩
  simp only [Dispatcher.resumed, Context.enter, Context.leave, same.depth]

end Switchboard.Dispatcher
