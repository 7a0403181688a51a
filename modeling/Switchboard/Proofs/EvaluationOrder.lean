import Switchboard.Proofs.Evaluation

namespace Switchboard.Eval
open Source

-- An expression evaluates one of its parts, in the second of the two states.
inductive Part (host : Host σ) : Expr → σ → Expr → σ → Prop where
  | item {before item after s values t} : evalAll host before s = (.ok values, t) →
    Part host (.array (before ++ item :: after)) s item t
  | entry {before key value after s object t} : evalEntries host [] before s = (.ok object, t) →
    Part host (.object (before ++ (key, value) :: after)) s value t
  | argument {operator before arg after s values t} : Form.ofName? operator = none →
    evalAll host before s = (.ok values, t) → Part host (.call operator (before ++ arg :: after)) s arg t
  | step {operator before arg after s last t} : Form.ofName? operator = some .block →
    evalBlock host .null before s = (.ok last, t) → Part host (.call operator (before ++ arg :: after)) s arg t
  | test {operator wanted before arg after s last t} :
    Form.ofName? operator = some (if wanted then .all else .any) →
    evalWhile host wanted (.bool wanted) before s = (.ok last, t) → last.truthy = wanted →
    Part host (.call operator (before ++ arg :: after)) s arg t
  | condition {operator cond yes rest s} : Form.ofName? operator = some .branch → rest.length ≤ 1 →
    Part host (.call operator (cond :: yes :: rest)) s cond s
  | yes {operator cond yes rest s test t} : Form.ofName? operator = some .branch → rest.length ≤ 1 →
    evalExpr host cond s = (.ok test, t) → test.truthy = true →
    Part host (.call operator (cond :: yes :: rest)) s yes t
  | no {operator cond yes no s test t} : Form.ofName? operator = some .branch →
    evalExpr host cond s = (.ok test, t) → test.truthy = false →
    Part host (.call operator [cond, yes, no]) s no t
  | read {operator target s} : Form.ofName? operator = some .get → (∀ path, target ≠ .variable path) →
    Part host (.call operator [target]) s target s
  | target {operator target value s} : Form.ofName? operator = some .set → (∀ path, target ≠ .variable path) →
    Part host (.call operator [target, value]) s target s
  | value {operator target value s path t} : Form.ofName? operator = some .set →
    pathOf target (evalExpr host target) s = (.ok path, t) → path ≠ "" →
    Part host (.call operator [target, value]) s value t

inductive Reaches (host : Host σ) : Expr → σ → Expr → σ → Prop where
  | here {expr s} : Reaches host expr s expr s
  | part {expr s part t inner u} : Part host expr s part t → Reaches host part t inner u →
    Reaches host expr s inner u

-- the states in which a program comes to a node, or to an expression in one
inductive Evaluates (host : Host σ) : Program → σ → σ → Prop where
  | node {before node after s value t} : evalProgram host before s = (.ok value, t) →
    Evaluates host (before ++ node :: after) s t
  | inside {before expr after s value t inner u} : evalProgram host before s = (.ok value, t) →
    Reaches host expr t inner u → Evaluates host (before ++ .template expr :: after) s u

section
variable {host : Host σ} {ok : σ → Prop} {ended : Fault → σ → Prop} {s t : σ}

theorem Run.Keeps.left {m : Run σ α} (keeps : Run.Keeps ok ended m) {a : α} (left : m s = (.ok a, t))
    (good : ok s) : ok t := by
  have leaves := keeps s good
  rw [left] at leaves
  cases leaves with
  | value good' => exact good'

theorem Part.keeps (keep : host.Keeps ok ended) {expr part : Expr} (parts : Part host expr s part t)
    (good : ok s) : ok t := by
  cases parts with
  | item left => exact (evalAll_agrees keep.agrees _).keeps.left left good
  | entry left => exact (evalEntries_agrees keep.agrees _ _).keeps.left left good
  | argument _ left => exact (evalAll_agrees keep.agrees _).keeps.left left good
  | step _ left => exact (evalBlock_agrees keep.agrees _ _).keeps.left left good
  | test _ left _ => exact (evalWhile_agrees keep.agrees _ _ _).keeps.left left good
  | condition _ _ => exact good
  | yes _ _ left _ => exact (evalExpr_agrees keep.agrees _).keeps.left left good
  | no _ left _ => exact (evalExpr_agrees keep.agrees _).keeps.left left good
  | read _ _ => exact good
  | target _ _ => exact good
  | value _ left _ => exact (pathOf_agrees _ (evalExpr_agrees keep.agrees _)).keeps.left left good

theorem Reaches.keeps (keep : host.Keeps ok ended) {expr inner : Expr}
    (reaches : Reaches host expr s inner t) (good : ok s) : ok t := by
  induction reaches with
  | here => exact good
  | part parts _ ih => exact ih (parts.keeps keep good)

theorem Evaluates.keeps (keep : host.Keeps ok ended) {program : Program}
    (evaluates : Evaluates host program s t) (good : ok s) : ok t := by
  cases evaluates with
  | node left => exact (evalProgram_keeps keep _).left left good
  | inside left reaches => exact reaches.keeps keep ((evalProgram_keeps keep _).left left good)

end

end Switchboard.Eval
