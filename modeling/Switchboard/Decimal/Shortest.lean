import Switchboard.Decimal.Binary

namespace Switchboard.Decimal

-- what is taken when two candidates are equally near
inductive Tie where
  | up
  | even
deriving DecidableEq, Repr

-- coefficient · 10^exponent
structure Scaled where
  coefficient : Nat
  exponent : Int
deriving DecidableEq, Repr

def digitCount (n : Nat) : Nat :=
  if n < 10 then 1 else digitCount (n / 10) + 1

def digits (n : Nat) : List Char :=
  (if n < 10 then [] else digits (n / 10)) ++ [Char.ofNat (48 + n % 10)]

def tenNum (e : Int) : Nat := tenTo e.toNat
def tenDen (e : Int) : Nat := tenTo (-e).toNat

-- the p with 10^p ≤ m · 2^q < 10^(p+1), for m > 0
def magnitude (m : Nat) (q : Int) : Int :=
  let num := m * twoTo q.toNat
  let den := twoTo (-q).toNat
  if den ≤ num then digitCount (num / den) - 1
  else -(digitCount ((den - 1) / num) : Int)

-- Four times the mantissa leaves room for the midpoints; the exponent makes up for it.
def lowerMidpoint (m : Nat) (q : Int) : Nat :=
  if m = twoTo 52 ∧ -1074 < q then 4 * m - 1 else 4 * m - 2

def upperMidpoint (m : Nat) : Nat := 4 * m + 2

-- the best point of the grid of multiples of 10^step, if one rounds to m · 2^q
def onGrid (tie : Tie) (m : Nat) (q step : Int) : Option Nat :=
  let scale := twoTo (q - 2).toNat * tenDen step
  let unit := twoTo (2 - q).toNat * tenNum step
  let value := 4 * m * scale
  let low := lowerMidpoint m q * scale
  let high := upperMidpoint m * scale
  let down := value / unit
  let up := down + 1
  let inside (d : Nat) : Bool :=
    if m % 2 = 0 then decide (low ≤ d * unit) && decide (d * unit ≤ high)
    else decide (low < d * unit) && decide (d * unit < high)
  let below := value - down * unit
  let above := up * unit - value
  match inside down, inside up with
  | false, false => none
  | true, false => some down
  | false, true => some up
  | true, true =>
    if below < above then some down
    else if above < below then some up
    else match tie with
      | .up => some up
      | .even => some (if down % 2 = 0 then down else up)

def dropZeros (fuel : Nat) (d : Scaled) : Scaled :=
  match fuel with
  | 0 => d
  | fuel + 1 =>
    if d.coefficient ≠ 0 ∧ d.coefficient % 10 = 0 then
      dropZeros fuel ⟨d.coefficient / 10, d.exponent + 1⟩
    else d

-- Seventeen digits always suffice for binary64; the exact expansion stands behind them.
def shortest (tie : Tie) (m : Nat) (q : Int) : Scaled :=
  if m = 0 then ⟨0, 0⟩
  else
    let p := magnitude m q
    let found := (List.range 17).findSome? fun (i : Nat) =>
      (onGrid tie m q (p - i)).map fun d => (⟨d, p - i⟩ : Scaled)
    dropZeros 18 (found.getD ⟨m * twoTo q.toNat * fiveTo (-q).toNat, min q 0⟩)

end Switchboard.Decimal
