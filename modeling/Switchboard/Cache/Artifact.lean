import Switchboard.Cache.Fingerprint
import Switchboard.Json.Printer
import Switchboard.Source.Document

namespace Switchboard

structure Artifact where
  version : Nat
  fingerprint : Fingerprint
  program : Source.Program

namespace Artifact
open Json (Tree)

def currentVersion : Nat := 1

def natural (n : Nat) : Json :=
  .number (.int n)

def toJson (a : Artifact) : Json :=
  .object [
    ("version", natural a.version),
    ("fingerprint", .object [
      ("secs", natural a.fingerprint.secs),
      ("nanos", natural a.fingerprint.nanos)]),
    ("nodes", Source.programToJson a.program)]

def toBytes (a : Artifact) : ByteArray :=
  a.toJson.render.toUTF8

def readNatural (bound : Nat) : Tree → Option Nat
  | .number n =>
    match Tree.numberOf n with
    | some (.int i) => if 0 ≤ i ∧ i < bound then some i.toNat else none
    | _ => none
  | _ => none

-- the one field of a name; a field that comes twice is no record
def field (name : String) (fields : List (String × Tree)) : Option Tree :=
  match fields.filter fun f => f.1 == name with
  | [(_, tree)] => some tree
  | _ => none

def record (names : List String) : Tree → Option (List Tree)
  | .array items => if items.length = names.length then some items else none
  | .object fields => do
    let fields ← Source.Document.readNames fields
    names.mapM fun name => field name fields
  | _ => none

def readFingerprint (tree : Tree) : Option Fingerprint := do
  match ← record ["secs", "nanos"] tree with
  | [secs, nanos] =>
    let secs ← readNatural (twoTo 64) secs
    let nanos ← readNatural (twoTo 32) nanos
    some ⟨secs, nanos⟩
  | _ => none

def ofTree (tree : Tree) : Option Artifact := do
  match ← record ["version", "fingerprint", "nodes"] tree with
  | [version, fingerprint, nodes] =>
    let version ← readNatural (twoTo 32) version
    let fingerprint ← readFingerprint fingerprint
    let program ← Source.Document.readProgram (Json.maxOpen - 1) nodes
    some ⟨version, fingerprint, program⟩
  | _ => none

def ofBytes (bytes : ByteArray) : Option Artifact := do
  let text ← String.fromUTF8? bytes
  let tree ← Tree.read text.toList
  ofTree tree

end Artifact
end Switchboard
