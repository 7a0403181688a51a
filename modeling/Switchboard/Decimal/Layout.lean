import Switchboard.Decimal.Shortest

namespace Switchboard.Decimal

-- `positional` bounds the power of ten of the leading digit, both ends included; without bounds
-- every number is written out. `whole` follows the digits of a number without a fraction.
structure Layout where
  positional : Option (Int × Int)
  whole : List Char
  tie : Tie

def zeros (n : Nat) : List Char := List.replicate n '0'

def Layout.writesOut (layout : Layout) (leading : Int) : Bool :=
  match layout.positional with
  | none => true
  | some (low, high) => decide (low ≤ leading) && decide (leading ≤ high)

def Layout.place (layout : Layout) (d : Scaled) : List Char :=
  let ds := digits d.coefficient
  let leading : Int := ds.length - 1 + d.exponent
  if d.coefficient = 0 then '0' :: layout.whole
  else if layout.writesOut leading then
    if 0 ≤ d.exponent then ds ++ zeros d.exponent.toNat ++ layout.whole
    else if 0 ≤ leading then
      let point := (leading + 1).toNat
      ds.take point ++ '.' :: ds.drop point
    else '0' :: '.' :: zeros (-leading - 1).toNat ++ ds
  else
    let mantissa := match ds with
      | [] => []
      | [d] => [d]
      | d :: rest => d :: '.' :: rest
    let sign := if leading < 0 then '-' else '+'
    mantissa ++ 'e' :: sign :: digits leading.natAbs

def Layout.render (layout : Layout) (b : Binary) : List Char :=
  let body := layout.place (shortest layout.tie b.mantissa b.exponent)
  if b.negative then '-' :: body else body

end Switchboard.Decimal
