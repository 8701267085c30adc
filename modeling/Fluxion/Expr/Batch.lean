import Fluxion.Expr.Evaluation

/-!
# Evaluation in batches

A variable may stand for one number or for a batch of numbers, one for each lane. Operations on
batches act lane by lane; one number, and a batch with a single lane, serve every lane of the
other operand. Two batches of other lengths have no result unless the lengths are equal.

A logarithm fails for the whole batch as soon as one lane is outside its domain, and reports
the smallest operand.

## Main definitions

* `Batch`, `Batch.zipWith` — numbers in lanes, and lane-by-lane operations
* `Expr.evalBatch` — the value of an expression, batch by batch
-/

namespace Fluxion

/-- One number, or one number for each lane. -/
inductive Batch (α : Type) where
  | single (a : α)
  | lanes (as : List α)

namespace Batch

variable {α : Type}

/-- All numbers of a batch. -/
def toList : Batch α → List α
  | single a => [a]
  | lanes as => as

/-- A function on every lane. -/
def map (f : α → α) : Batch α → Batch α
  | single a => single (f a)
  | lanes as => lanes (as.map f)

/-- An operation lane by lane. -/
def zipWith (f : α → α → α) : Batch α → Batch α → Except (EvalError α) (Batch α)
  | single a, single b => .ok (single (f a b))
  | single a, lanes bs => .ok (lanes (bs.map (f a)))
  | lanes as, single b => .ok (lanes (as.map (f · b)))
  | lanes [a], lanes bs => .ok (lanes (bs.map (f a)))
  | lanes as, lanes [b] => .ok (lanes (as.map (f · b)))
  | lanes as, lanes bs =>
    if as.length = bs.length then .ok (lanes (as.zipWith f bs))
    else .error (.mismatch as.length bs.length)

end Batch

namespace Expr

variable {α : Type} [Arithmetic α]

/-- The natural logarithm of every lane, if all are in its domain. -/
def evalLogBatch (u : Batch α) : Except (EvalError α) (Batch α) :=
  match u.toList with
  | [] => .ok u
  | a :: as =>
    if (a :: as).any Arithmetic.isNonpos then .error (.logDomain (as.foldl Arithmetic.lesser a))
    else .ok (u.map Arithmetic.log)

/-- The value of an expression, given the batches that variables stand for. -/
def evalBatch (values : String → Option (Batch α)) : Expr α → Except (EvalError α) (Batch α)
  | const c => .ok (.single c)
  | var x => match values x with
    | some a => .ok a
    | none => .error (.unbound x)
  | add l r => do (← evalBatch values l).zipWith (· + ·) (← evalBatch values r)
  | mul l r => do (← evalBatch values l).zipWith (· * ·) (← evalBatch values r)
  | pow b e => do (← evalBatch values b).zipWith Arithmetic.pow (← evalBatch values e)
  | log f => do evalLogBatch (← evalBatch values f)
  | sin f => do return (← evalBatch values f).map Arithmetic.sin
  | cos f => do return (← evalBatch values f).map Arithmetic.cos

end Expr

end Fluxion
