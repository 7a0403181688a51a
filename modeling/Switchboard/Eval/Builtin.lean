import Switchboard.Decimal.Plain
import Switchboard.Eval.Fault
import Switchboard.Json.Printer

namespace Switchboard.Eval

inductive Builtin where
  | not | eq | ne | lt | le | gt | ge | add | mul | sub | div | concat | len | array | json
deriving DecidableEq, Repr

structure Arity where
  least : Nat
  most : Option Nat

def Arity.admits (a : Arity) (given : Nat) : Bool :=
  decide (a.least ≤ given) && a.most.all fun most => decide (given ≤ most)

namespace Builtin

def ofName? (name : String) : Option Builtin :=
  match name with
  | "not" => some .not
  | "eq" => some .eq
  | "ne" => some .ne
  | "lt" => some .lt
  | "le" => some .le
  | "gt" => some .gt
  | "ge" => some .ge
  | "+" => some .add
  | "*" => some .mul
  | "-" => some .sub
  | "/" => some .div
  | "concat" => some .concat
  | "len" => some .len
  | "array" => some .array
  | "json" => some .json
  | _ => none

def name : Builtin → String
  | .not => "not"
  | .eq => "eq"
  | .ne => "ne"
  | .lt => "lt"
  | .le => "le"
  | .gt => "gt"
  | .ge => "ge"
  | .add => "+"
  | .mul => "*"
  | .sub => "-"
  | .div => "/"
  | .concat => "concat"
  | .len => "len"
  | .array => "array"
  | .json => "json"

def arity : Builtin → Arity
  | .not | .len | .json => ⟨1, some 1⟩
  | .eq | .ne | .lt | .le | .gt | .ge | .div => ⟨2, some 2⟩
  | .add | .mul | .sub => ⟨1, none⟩
  | .concat | .array => ⟨0, none⟩

theorem ofName?_name (b : Builtin) : ofName? b.name = some b := by
  cases b <;> rfl

def wrongTypes (b : Builtin) (args : List Json) : Fault :=
  .argumentTypes b.name (args.map Json.kind)

-- Arithmetic takes numbers and the strings that hold one.
def operand? : Json → Option Float
  | .number n => some n.toFloat
  | .string s => (Json.string s).toFloat?
  | _ => none

def operands (b : Builtin) (args : List Json) : Except Fault (List Float) :=
  match args.mapM operand? with
  | some xs => .ok xs
  | none => .error (b.wrongTypes args)

def result (x : Float) : Except Fault Json :=
  match Number.ofFloat? x with
  | some n => .ok (.number n)
  | none => .error (.failed (Decimal.plain x ++ " is not a finite number"))

-- Two numbers are compared as numbers, whatever their form.
def looselyEqual : Json → Json → Bool
  | .number a, .number b => a.toFloat == b.toFloat
  | a, b => a.same b

def orderStrings (a b : String) : Ordering :=
  if a < b then .lt else if a = b then .eq else .gt

def orderFloats (x y : Float) : Option Ordering :=
  if x < y then some .lt else if y < x then some .gt else if x == y then some .eq else none

-- Strings are compared by code points, other values as numbers; truth values are neither.
def order? : Json → Json → Option Ordering
  | .string a, .string b => some (orderStrings a b)
  | a, b =>
    if a.isBool || b.isBool then none
    else match a.toFloat?, b.toFloat? with
      | some x, some y => orderFloats x y
      | _, _ => none

def compareWith (b : Builtin) (accept : Ordering → Bool) (args : List Json) : Except Fault Json :=
  match args with
  | [x, y] =>
    match order? x y with
    | some o => .ok (.bool (accept o))
    | none => .error (b.wrongTypes args)
  | _ => .error (b.wrongTypes args)

def subtract : List Float → Float
  | [] => 0
  | [x] => -x
  | x :: rest => rest.foldl (· - ·) x

def divide (args : List Json) : Except Fault Json := do
  match ← operands .div args with
  | [x, y] => if y == 0 then .error .divisionByZero else result (x / y)
  | xs => .error (.argumentCount Builtin.div.name 2 xs.length)

def length (args : List Json) : Except Fault Json :=
  match args with
  | [.string s] => .ok (.number (.int s.length))
  | [.array items] => .ok (.number (.int items.length))
  | [.object fields] => .ok (.number (.int fields.length))
  | [.null] => .ok (.number (.int 0))
  | _ => .error (wrongTypes .len args)

def run (b : Builtin) (args : List Json) : Except Fault Json :=
  match b with
  | .not => .ok (.bool !(args.all Json.truthy))
  | .eq => match args with
    | [x, y] => .ok (.bool (looselyEqual x y))
    | _ => .ok (.bool false)
  | .ne => match args with
    | [x, y] => .ok (.bool !(looselyEqual x y))
    | _ => .ok (.bool false)
  | .lt => compareWith .lt (· == .lt) args
  | .le => compareWith .le (· != .gt) args
  | .gt => compareWith .gt (· == .gt) args
  | .ge => compareWith .ge (· != .lt) args
  | .add => (operands .add args).bind fun xs => result (xs.foldl (· + ·) 0)
  | .mul => (operands .mul args).bind fun xs => result (xs.foldl (· * ·) 1)
  | .sub => (operands .sub args).bind fun xs => result (subtract xs)
  | .div => divide args
  | .concat => .ok (.string (String.join (args.map Json.text)))
  | .len => length args
  | .array => .ok (.array args)
  | .json => .ok (.string ((args.head?.getD .null).render))

def apply (b : Builtin) (args : List Json) : Except Fault Json :=
  if b.arity.admits args.length then b.run args
  else .error (.argumentCount b.name b.arity.least args.length)

end Builtin
end Switchboard.Eval
