import Switchboard.Decimal.Layout

namespace Switchboard.Decimal

-- A half goes up.
def plainLayout : Layout := ⟨none, [], .up⟩

def plain (x : Float) : String :=
  match Binary.ofFloat? x with
  | some b => String.ofList (plainLayout.render b)
  | none => if x.isNaN then "NaN" else if x < 0 then "-inf" else "inf"

end Switchboard.Decimal
