namespace Switchboard.Text.Base64

def digitValue (c : Char) : Option Nat :=
  if 'A' ≤ c ∧ c ≤ 'Z' then some (c.toNat - 65)
  else if 'a' ≤ c ∧ c ≤ 'z' then some (c.toNat - 71)
  else if '0' ≤ c ∧ c ≤ '9' then some (c.toNat + 4)
  else if c = '+' then some 62
  else if c = '/' then some 63
  else none

def oneByte (a b : Char) : Option (List UInt8) := do
  let a ← digitValue a
  let b ← digitValue b
  if b % 16 = 0 then some [UInt8.ofNat (a * 4 + b / 16)] else none

def twoBytes (a b c : Char) : Option (List UInt8) := do
  let a ← digitValue a
  let b ← digitValue b
  let c ← digitValue c
  if c % 4 = 0 then some [UInt8.ofNat (a * 4 + b / 16), UInt8.ofNat (b % 16 * 16 + c / 4)] else none

def threeBytes (a b c d : Char) : Option (List UInt8) := do
  let a ← digitValue a
  let b ← digitValue b
  let c ← digitValue c
  let d ← digitValue d
  some [UInt8.ofNat (a * 4 + b / 16), UInt8.ofNat (b % 16 * 16 + c / 4),
    UInt8.ofNat (c % 4 * 64 + d)]

def decode : List Char → Option (List UInt8)
  | [] => some []
  | [a, b, '=', '='] => oneByte a b
  | [a, b, c, '='] => twoBytes a b c
  | a :: b :: c :: d :: rest => do
    let bytes ← threeBytes a b c d
    let more ← decode rest
    some (bytes ++ more)
  | _ => none

end Switchboard.Text.Base64
