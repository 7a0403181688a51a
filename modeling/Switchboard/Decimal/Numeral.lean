import Switchboard.Decimal.Shortest

namespace Switchboard.Decimal

-- stands for coefficient · 10^exponent, with its sign
structure Numeral where
  negative : Bool
  coefficient : Nat
  exponent : Int
deriving DecidableEq, Repr

def infinity : Float := Float.ofBits 0x7FF0000000000000
def notANumber : Float := Float.ofBits 0x7FF8000000000000

-- Beyond these powers of ten every number rounds to infinity, or to zero.
def Numeral.toFloat (n : Numeral) : Float :=
  let leading := (digitCount n.coefficient : Int) + n.exponent
  let size :=
    if n.coefficient = 0 ∨ leading < -330 then 0.0
    else if 310 < leading then infinity
    else Float.ofScientific n.coefficient (decide (n.exponent < 0)) n.exponent.natAbs
  if n.negative then -size else size

def digitValue (c : Char) : Nat := c.toNat - 48

-- `n` with the digits behind it
def appendDigits (n : Nat) (ds : List Char) : Nat :=
  ds.foldl (fun n c => n * 10 + digitValue c) n

-- A long row is read in two halves, so that the work does not grow with the square of its length.
def digitsValue (ds : List Char) : Nat :=
  if ds.length ≤ 64 then appendDigits 0 ds
  else
    let low := ds.drop (ds.length / 2)
    digitsValue (ds.take (ds.length / 2)) * tenTo low.length + digitsValue low
termination_by ds.length

theorem appendDigits_shift (n : Nat) (ds : List Char) :
    appendDigits n ds = n * tenTo ds.length + appendDigits 0 ds := by
  induction ds generalizing n with
  | nil => exact (Nat.mul_one n).symm
  | cons d ds ih =>
    have step (m : Nat) : appendDigits m (d :: ds) = appendDigits (m * 10 + digitValue d) ds := rfl
    have power : tenTo (d :: ds).length = tenTo ds.length * 10 := rfl
    rw [step, step, ih, ih (0 * 10 + digitValue d), power, Nat.add_mul, Nat.add_mul, Nat.zero_mul,
      Nat.zero_add, Nat.add_assoc, Nat.mul_comm (tenTo ds.length), Nat.mul_assoc]

theorem digitsValue_eq (ds : List Char) : digitsValue ds = appendDigits 0 ds := by
  fun_induction digitsValue ds with
  | case1 => rfl
  | case2 ds _ low high_value low_value =>
    rw [high_value, low_value, ← appendDigits_shift, appendDigits, appendDigits, appendDigits,
      ← List.foldl_append, List.take_append_drop]

def maxDigits : Nat := 800

-- A number halfway between two binary64 numbers has fewer significant digits than are kept here, so
-- of the others it only matters whether they are all zeros.
def Numeral.ofParts (negative : Bool) (whole fraction : List Char) (exponent : Int) : Numeral :=
  let ds := (whole ++ fraction).dropWhile (· == '0')
  let beyond := ds.drop maxDigits
  let exponent := exponent - fraction.length + beyond.length
  if beyond.all (· == '0') then ⟨negative, digitsValue (ds.take maxDigits), exponent⟩
  else ⟨negative, digitsValue (ds.take maxDigits ++ ['1']), exponent - 1⟩

def readNat (s : List Char) : Option Nat :=
  let ds := match s with
    | '+' :: rest => rest
    | _ => s
  if ds ≠ [] ∧ ds.all Char.isDigit then some (digitsValue ds) else none

def takeSign : List Char → Bool × List Char
  | '-' :: rest => (true, rest)
  | '+' :: rest => (false, rest)
  | rest => (false, rest)

def readInt (s : List Char) : Option Int :=
  let (negative, ds) := takeSign s
  if ds ≠ [] ∧ ds.all Char.isDigit then
    some (if negative then -(digitsValue ds : Int) else digitsValue ds)
  else none

def exponentBound : Nat := 65536

-- Once the bound is reached, further digits count for nothing.
def exponentValue (ds : List Char) : Nat :=
  ds.foldl (fun n c => if n < exponentBound then n * 10 + digitValue c else n) 0

def readExponent : List Char → Option Int
  | [] => some 0
  | c :: rest =>
    let (negative, ds) := takeSign rest
    if (c = 'e' ∨ c = 'E') ∧ ds ≠ [] ∧ ds.all Char.isDigit then
      some (if negative then -(exponentValue ds : Int) else exponentValue ds)
    else none

-- At least one digit stands before or after the point.
def readUnsigned (negative : Bool) (s : List Char) : Option Numeral :=
  let whole := s.takeWhile Char.isDigit
  let rest := s.dropWhile Char.isDigit
  let (fraction, rest) := match rest with
    | '.' :: more => (more.takeWhile Char.isDigit, more.dropWhile Char.isDigit)
    | _ => ([], rest)
  if whole = [] ∧ fraction = [] then none
  else (readExponent rest).map (Numeral.ofParts negative whole fraction)

def readWord (negative : Bool) (s : List Char) : Option Float :=
  let word := s.map Char.toLower
  if word = "inf".toList ∨ word = "infinity".toList then
    some (if negative then -infinity else infinity)
  else if word = "nan".toList then some notANumber
  else none

-- A free-standing number: sign, digits with an optional point, exponent; or a word for infinity or
-- for no number at all.
def readFloat (s : List Char) : Option Float :=
  let (negative, body) := takeSign s
  match readWord negative body with
  | some x => some x
  | none => (readUnsigned negative body).map Numeral.toFloat

end Switchboard.Decimal
