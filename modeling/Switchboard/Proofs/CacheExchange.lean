import Switchboard.Proofs.TwinRuns

namespace Switchboard.Dispatcher
open ProgramCache

def Exchanged (one other : Dispatcher) : Prop :=
  ∃ cache, one.cache.Interchangeable cache ∧ other = { one with cache }

section
variable {one other : Dispatcher}

theorem Exchanged.twin (exchanged : Exchanged one other) : Twin id one other := exchanged

theorem During.exchanged {path : FunctionPath} {m : Dispatcher} (during : During path one m)
    (exchanged : Exchanged one other) : ∃ twin, During path other twin ∧ Exchanged m twin :=
  during.twin .same exchanged.twin

-- What is answered shows nothing of the cache.
theorem respond_exchanged (exchanged : Exchanged one other) (params : Params) :
    (other.respond params).1 = (one.respond params).1 :=
  respond_twin .same exchanged.twin params (.inl fun _ => rfl)

end

end Switchboard.Dispatcher
