import Switchboard.Text.Blank
import Switchboard.Text.Split

namespace Switchboard

structure BatchEntry where
  label : String
  encoded : String
deriving DecidableEq, Repr

namespace Envelope

def maxEntries : Nat := 256

def entry? (piece : List Char) : Option BatchEntry :=
  match Text.cut ',' (Text.trimWhere Text.isBlank piece) with
  | none => none
  | some (label, encoded) =>
    let label := Text.trimWhere Text.isBlank label
    let encoded := Text.trimWhere Text.isBlank encoded
    if label = [] ∨ encoded = [] then none
    else some ⟨String.ofList label, String.ofList encoded⟩

def entries (envelope : String) : List BatchEntry :=
  ((Text.split ';' envelope.toList).filterMap entry?).take maxEntries

end Envelope
end Switchboard
