import Switchboard.Context
import Switchboard.Eval.Builtin
import Switchboard.Source.Expr

namespace Switchboard.Eval
open Source

structure Host (σ : Type) where
  context : σ → Context
  withContext : σ → Context → σ
  call : String → List Json → σ → Option (Except Fault Json) × σ

def Run (σ α : Type) := σ → Except Fault α × σ

namespace Run

protected def pure (a : α) : Run σ α := fun s => (.ok a, s)

def fail (e : Fault) : Run σ α := fun s => (.error e, s)

protected def bind (first : Run σ α) (next : α → Run σ β) : Run σ β := fun s =>
  match first s with
  | (.ok a, s) => next a s
  | (.error e, s) => (.error e, s)

instance : Monad (Run σ) where
  pure := Run.pure
  bind := Run.bind

def ofExcept (r : Except Fault α) : Run σ α := fun s => (r, s)

end Run

-- operators that decide themselves which of their arguments are evaluated
inductive Form where
  | set | get | block | branch | all | any
deriving DecidableEq, Repr

def Form.ofName? (name : String) : Option Form :=
  match name with
  | "set" => some .set
  | "get" => some .get
  | "do" => some .block
  | "if" => some .branch
  | "and" => some .all
  | "or" => some .any
  | _ => none

def Host.lookup (host : Host σ) (path : String) : Run σ Json := fun s =>
  (.ok ((host.context s).lookup path), s)

def Host.assign (host : Host σ) (path : String) (value : Json) : Run σ Json := fun s =>
  (.ok value, host.withContext s ((host.context s).set path value))

def Host.invoke (host : Host σ) (operator : String) (args : List Json) : Run σ Json := fun s =>
  match host.call operator args s with
  | (some r, s) => (r, s)
  | (none, s) => (.error (.undefined operator), s)

def Host.apply (host : Host σ) (operator : String) (args : List Json) : Run σ Json :=
  match Builtin.ofName? operator with
  | some b => Run.ofExcept (b.apply args)
  | none => host.invoke operator args

-- A name alone is the path itself; of anything else it is the text of its value.
def pathOf (target : Expr) (value : Run σ Json) : Run σ String :=
  match target with
  | .variable path => pure path
  | _ => do
    let value ← value
    pure value.text

mutual

def evalExpr (host : Host σ) : Expr → Run σ Json
  | .literal value => pure value
  | .variable path => host.lookup path
  | .array items => do
    let values ← evalAll host items
    pure (.array values)
  | .object entries => evalEntries host [] entries
  | .call operator args =>
    match Form.ofName? operator with
    | some .set => evalSet host operator args
    | some .get => evalGet host operator args
    | some .block => evalBlock host .null args
    | some .branch => evalBranch host operator args
    | some .all => evalWhile host true (.bool true) args
    | some .any => evalWhile host false (.bool false) args
    | none => do
      let values ← evalAll host args
      host.apply operator values

def evalAll (host : Host σ) : List Expr → Run σ (List Json)
  | [] => pure []
  | item :: items => do
    let value ← evalExpr host item
    let values ← evalAll host items
    pure (value :: values)

def evalEntries (host : Host σ) (done : Fields) : List (String × Expr) → Run σ Json
  | [] => pure (.object done)
  | (key, expr) :: entries => do
    let value ← evalExpr host expr
    evalEntries host (Entries.put key value done) entries

def evalBlock (host : Host σ) (last : Json) : List Expr → Run σ Json
  | [] => pure last
  | arg :: args => do
    let value ← evalExpr host arg
    evalBlock host value args

-- goes on as long as the values are true, or as long as they are not
def evalWhile (host : Host σ) (wanted : Bool) (last : Json) : List Expr → Run σ Json
  | [] => pure last
  | arg :: args => do
    let value ← evalExpr host arg
    if value.truthy = wanted then evalWhile host wanted value args else pure value

def evalBranch (host : Host σ) (operator : String) : List Expr → Run σ Json
  | [cond, yes] => do
    let test ← evalExpr host cond
    if test.truthy then evalExpr host yes else pure .null
  | [cond, yes, no] => do
    let test ← evalExpr host cond
    if test.truthy then evalExpr host yes else evalExpr host no
  | args => Run.fail (.argumentCount operator 2 args.length)

def evalGet (host : Host σ) (operator : String) : List Expr → Run σ Json
  | [target] => do
    let path ← pathOf target (evalExpr host target)
    host.lookup path
  | args => Run.fail (.argumentCount operator 1 args.length)

def evalSet (host : Host σ) (operator : String) : List Expr → Run σ Json
  | [target, expr] => do
    let path ← pathOf target (evalExpr host target)
    if path = "" then Run.fail (.argumentTypes operator ["string"])
    else do
      let value ← evalExpr host expr
      host.assign path value
  | args => Run.fail (.argumentCount operator 2 args.length)

end

def evalNode (host : Host σ) : Node → Run σ Json
  | .text content => pure (.string content)
  | .template expr => evalExpr host expr

def evalNodes (host : Host σ) (last : Json) : Program → Run σ Json
  | [] => pure last
  | node :: nodes => do
    let value ← evalNode host node
    evalNodes host value nodes

def evalProgram (host : Host σ) (program : Program) : Run σ Json :=
  evalNodes host .null program

def bareHost : Host Context where
  context c := c
  withContext _ c := c
  call _ _ c := (none, c)

end Switchboard.Eval
