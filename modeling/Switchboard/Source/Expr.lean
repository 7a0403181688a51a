import Switchboard.Json.Value

namespace Switchboard.Source

inductive Expr where
  | literal (value : Json)
  | variable (path : String)
  | call (operator : String) (args : List Expr)
  | array (items : List Expr)
  | object (entries : List (String × Expr))
deriving Inhabited

inductive Node where
  | text (content : String)
  | template (expr : Expr)
deriving Inhabited

def Node.isTemplate : Node → Bool
  | .text _ => false
  | .template _ => true

abbrev Program := List Node

end Switchboard.Source
