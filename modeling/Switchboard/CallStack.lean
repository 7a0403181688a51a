import Switchboard.Path

namespace Switchboard

structure CallFrame where
  scope : String
  path : FunctionPath
deriving DecidableEq, Repr

def CallFrame.of (path : FunctionPath) : CallFrame :=
  ⟨path.scope, path⟩

abbrev CallStack := List CallFrame

namespace CallStack

-- a relative name with nothing running
structure Unresolved where
  path : FunctionPath
deriving DecidableEq, Repr

def Unresolved.message (e : Unresolved) : String :=
  "Cannot resolve relative path \"" ++ e.path.text ++ "\" without an active frame"

def resolve (stack : CallStack) (path : FunctionPath) : Except Unresolved FunctionPath :=
  if path.isRelative then
    match stack with
    | [] => .error ⟨path⟩
    | frame :: _ => .ok (path.inScope frame.scope)
  else .ok path

end CallStack
end Switchboard
