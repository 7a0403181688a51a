namespace Switchboard.Eval

-- the ways to leave a program from inside
inductive Signal where
  | earlyReturn
  | suppressed
  | terminated
deriving DecidableEq, Repr

inductive Fault where
  | thrown (message : String)
  | undefined (operator : String)
  | argumentCount (operator : String) (expected given : Nat)
  | argumentTypes (operator : String) (kinds : List String)
  | divisionByZero
  | failed (message : String)
  | unwinding (signal : Signal)
deriving DecidableEq, Repr

def Signal.render : Signal → String
  | .earlyReturn => "Return"
  | .suppressed => "Suppressed"
  | .terminated => "Terminated"

def Fault.message : Fault → String
  | .thrown message => message
  | .undefined operator => "\"" ++ operator ++ "\" is not defined"
  | .argumentCount operator expected given =>
    "Invalid number of arguments in \"" ++ operator ++ "\", expected " ++ toString expected ++
      ", got " ++ toString given
  | .argumentTypes operator kinds =>
    "Invalid types for \"" ++ operator ++ "\", got " ++ String.intercalate ", " kinds
  | .divisionByZero => "Divided by 0"
  | .failed message => message
  | .unwinding signal => "Unexpected unwind " ++ signal.render

end Switchboard.Eval
