import Switchboard.Json.Tree
import Switchboard.Json.Value

namespace Switchboard.Json

def maxOpen : Nat := 127

namespace Tree

def pairedUnits (high low : Nat) : Char :=
  Char.ofNat (0x10000 + (high - 0xD800) * 0x400 + (low - 0xDC00))

-- A leading surrogate needs its trailing one right behind it.
def plain : List Piece → Option (List Char)
  | [] => some []
  | .char c :: rest => (plain rest).map (c :: ·)
  | .unit n :: rest =>
    if 0xD800 ≤ n ∧ n ≤ 0xDBFF then
      match rest with
      | .unit low :: rest =>
        if 0xDC00 ≤ low ∧ low ≤ 0xDFFF then (plain rest).map (pairedUnits n low :: ·) else none
      | _ => none
    else if 0xDC00 ≤ n ∧ n ≤ 0xDFFF then none
    else (plain rest).map (Char.ofNat n :: ·)

def plainString (pieces : List Piece) : Option String :=
  (plain pieces).map String.ofList

-- Digits are taken onto a number as long as 64 bits hold it; the others are left over.
def takeDigits (n : Nat) : List Char → Nat × List Char
  | [] => (n, [])
  | d :: ds =>
    let longer := n * 10 + Decimal.digitValue d
    if longer < twoTo 64 then takeDigits longer ds else (n, d :: ds)

def powerOfTen (n : Nat) : Float := Float.ofScientific 1 false n

-- One product or quotient of binary64 numbers, each rounded; only below 10^-308 there are two. A
-- number under 2^64 leaves nothing below 10^-616.
def scaleByTen (x : Float) (e : Int) : Float :=
  if 308 < e then (if x == 0 then x else Decimal.infinity)
  else if 0 ≤ e then x * powerOfTen e.toNat
  else if -308 ≤ e then x / powerOfTen (-e).toNat
  else if -616 ≤ e then x / powerOfTen 308 / powerOfTen (-e - 308).toNat
  else 0.0

-- The digits that fit make a whole number, which is rounded and then scaled. Of those left over, the
-- ones before the point still count as places.
def floatOf (n : Numeric) : Option Number :=
  let (whole, excess) := takeDigits 0 n.whole
  let (size, dropped) := takeDigits whole n.fraction
  let places : Int := excess.length - (n.fraction.length - dropped.length : Nat)
  let x := scaleByTen (Float.ofNat size) (places + n.exponent.getD 0)
  (Decimal.Binary.ofFloat? x).map fun _ => .float (if n.negative then -x else x)

-- Digits alone are an integer as long as 64 bits hold it, except that -0 keeps its sign.
def numberOf (n : Numeric) : Option Number :=
  let (size, excess) := takeDigits 0 n.whole
  if n.fraction = [] ∧ n.exponent = none ∧ excess = [] then
    if n.negative then
      if 0 < size ∧ size ≤ twoTo 63 then some (.int (-(size : Int))) else floatOf n
    else some (.int size)
  else floatOf n

mutual

-- `room` is the number of arrays and objects that may still be opened.
def value : Nat → Tree → Option Json
  | _, .null => some .null
  | _, .bool b => some (.bool b)
  | _, .number n => (numberOf n).map .number
  | _, .string pieces => (plainString pieces).map .string
  | 0, .array _ => none
  | room + 1, .array items => (values room items).map .array
  | 0, .object _ => none
  | room + 1, .object fields => (valueFields room fields).map fun pairs => .object (Entries.ofPairs pairs)

def values : Nat → List Tree → Option (List Json)
  | _, [] => some []
  | room, item :: items => do
    let item ← value room item
    let items ← values room items
    some (item :: items)

def valueFields : Nat → List (List Piece × Tree) → Option (List (String × Json))
  | _, [] => some []
  | room, (name, tree) :: fields => do
    let name ← plainString name
    let value ← value room tree
    let fields ← valueFields room fields
    some ((name, value) :: fields)

end

end Tree

def readChars (cs : List Char) : Option Json :=
  (Tree.read cs).bind (Tree.value maxOpen)

def read (s : String) : Option Json :=
  readChars s.toList

end Switchboard.Json
