import Switchboard.Text.Split
import Switchboard.Text.Utf8

namespace Switchboard.Text.Form

def hexValue (b : UInt8) : Option Nat :=
  let n := b.toNat
  if 48 ≤ n ∧ n ≤ 57 then some (n - 48)
  else if 97 ≤ n ∧ n ≤ 102 then some (n - 87)
  else if 65 ≤ n ∧ n ≤ 70 then some (n - 55)
  else none

-- A percent sign that no two digits follow stands for itself.
def unescape : List UInt8 → List UInt8
  | [] => []
  | 0x25 :: a :: b :: rest =>
    match hexValue a, hexValue b with
    | some high, some low => UInt8.ofNat (high * 16 + low) :: unescape rest
    | _, _ => 0x25 :: unescape (a :: b :: rest)
  | 0x2B :: rest => 0x20 :: unescape rest
  | b :: rest => b :: unescape rest

def component (bytes : List UInt8) : String :=
  decodeLossy (unescape bytes)

def pair (piece : List UInt8) : String × String :=
  match cut 0x3D piece with
  | some (name, value) => (component name, component value)
  | none => (component piece, "")

-- Empty pieces say nothing.
def pairs (bytes : List UInt8) : List (String × String) :=
  ((split 0x26 bytes).filter (· ≠ [])).map pair

end Switchboard.Text.Form
