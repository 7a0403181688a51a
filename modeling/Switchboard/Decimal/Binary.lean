import Switchboard.Power

namespace Switchboard.Decimal

-- stands for mantissa · 2^exponent, with its sign
structure Binary where
  negative : Bool
  mantissa : Nat
  exponent : Int
deriving DecidableEq, Repr

-- Infinities and NaN are no fractions.
def Binary.ofFloat? (x : Float) : Option Binary :=
  let bits : Nat := x.toBits.toNat
  let negative := decide (twoTo 63 ≤ bits)
  let biased : Nat := bits / twoTo 52 % twoTo 11
  let fraction : Nat := bits % twoTo 52
  if biased = 2047 then none
  else if biased = 0 then some ⟨negative, fraction, -1074⟩
  else some ⟨negative, fraction + twoTo 52, (biased : Int) - 1075⟩

def Binary.signed (b : Binary) (n : Nat) : Int :=
  if b.negative then -(n : Int) else n

def Binary.toInt? (b : Binary) : Option Int :=
  match b.exponent with
  | .ofNat e => some (b.signed (b.mantissa * twoTo e))
  | .negSucc e =>
    if b.mantissa % twoTo (e + 1) = 0 then some (b.signed (b.mantissa / twoTo (e + 1))) else none

end Switchboard.Decimal
